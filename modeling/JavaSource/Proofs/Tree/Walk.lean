import Mathlib
import JavaSource.Tree.Walk

/-!
# The order of a walk

The nodes of a tree stand at addresses, the numbers of the parts on the way to them. A walk visits every address at
which a node stands once, in the lexicographic order of addresses, which is the order that puts a node before its
parts; and it knows the way to each: `walk_preorder`.

A node has the attributes that its kind declares, in order, and then others. Trees all of whose nodes are so are what
rules of the grammar give and what can be put together by hand.
-/

namespace JavaSource.Tree

open List

/-! ## Nodes of a tree -/

mutual

/-- Every node of the tree has the property, which is one of its kind and its attributes. -/
def Throughout (P : Kind → List (Attr × Tree) → Prop) : Tree → Prop
  | list xs | tuple xs | set xs => ThroughoutItems P xs
  | token _ value _ _ fields _ => value.Throughout P ∧ ThroughoutFields P fields
  | node kind fields _ => P kind fields ∧ ThroughoutFields P fields
  | _ => True

def ThroughoutItems (P : Kind → List (Attr × Tree) → Prop) : List Tree → Prop
  | [] => True
  | x :: xs => x.Throughout P ∧ ThroughoutItems P xs

def ThroughoutFields (P : Kind → List (Attr × Tree) → Prop) : List (Attr × Tree) → Prop
  | [] => True
  | (_, x) :: rest => x.Throughout P ∧ ThroughoutFields P rest

end

variable {P : Kind → List (Attr × Tree) → Prop}

@[simp] theorem throughoutItems_iff {xs : List Tree} : ThroughoutItems P xs ↔ ∀ x ∈ xs, x.Throughout P := by
  induction xs with
  | nil => simp [ThroughoutItems]
  | cons x xs ih => simp [ThroughoutItems, ih]

variable {fields : List (Attr × Tree)} {t : Tree}

@[simp] theorem throughoutFields_iff : ThroughoutFields P fields ↔ ∀ field ∈ fields, field.2.Throughout P := by
  induction fields with
  | nil => simp [ThroughoutFields]
  | cons field fields ih => simp [ThroughoutFields, ih]

/-- The attributes of a node: those that its kind declares, in order, and then others. -/
def Arranged (kind : Kind) (fields : List (Attr × Tree)) : Prop :=
  ∃ further, fields.map (·.1) = kind.attrs ++ further ∧ ∀ a ∈ further, a ∉ kind.attrs

theorem arranged_make (kind : Kind) (value : Attr → Tree) : Arranged kind (kind.attrs.map fun a => (a, value a)) := by
  refine ⟨[], ?_, forall_mem_nil _⟩
  rw [map_map, append_nil]
  exact map_id _

variable {a : Attr}

/-- The value of an attribute has a property that nothing has and all values have. -/
theorem getD_lookup_of_all {P : Tree → Prop} (nothing : P null) (all : ∀ field ∈ fields, P field.2) (a : Attr) :
    P ((lookup a fields).getD null) := by
  induction fields with
  | nil => exact nothing
  | cons field fields ih =>
    rw [lookup]
    split
    · exact all field mem_cons_self
    · exact ih fun later mem => all later (mem_cons_of_mem _ mem)

variable {kind : Kind}

theorem throughout_make {given : List (Attr × Tree)}
    (own : P kind (kind.attrs.map fun a => (a, (lookup a given).getD null)))
    (all : ∀ field ∈ given, field.2.Throughout P) : (make kind given).Throughout P := by
  rw [make, Throughout, throughoutFields_iff]
  refine ⟨own, fun field mem => ?_⟩
  obtain ⟨a, -, rfl⟩ := mem_map.1 mem
  exact getD_lookup_of_all (P := (·.Throughout P)) trivial all a

/-! ## Addresses -/

/-- Whether a walk goes into the tree. -/
def isEntered : Tree → Bool
  | node .. | list _ | tuple _ => true
  | _ => false

/-- Where a walk goes from a tree: to the values of the declared attributes of a node, and to the items of a list or
tuple. It does not go into anything else. -/
def parts : Tree → List Tree
  | node kind fields place => (node kind fields place).children
  | list xs | tuple xs => xs
  | _ => []

def at? (t : Tree) : List Nat → Option Tree
  | [] => some t
  | i :: rest => t.parts[i]?.bind (·.at? rest)

def trail (t : Tree) : List Nat → List Tree
  | [] => []
  | i :: rest => t :: (t.parts[i]?.map (·.trail rest)).getD []

def NodeAt (t : Tree) (address : List Nat) : Prop := ∃ n, t.at? address = some n ∧ n.kind?.isSome = true

/-- The visit of what stands at an address, in a tree at the end of a path. -/
def visitOf (path : List Tree) (t : Tree) (address : List Nat) : Visit :=
  ⟨path ++ t.trail address, (t.at? address).getD null⟩

variable {address : List Nat}

/-- The way to what stands at an address goes from each tree to a part of it. -/
theorem isChain_trail {n : Tree} (found : t.at? address = some n) :
    (t.trail address ++ [n]).IsChain (fun tree part => part ∈ tree.parts) ∧
      (t.trail address ++ [n]).head? = some t := by
  induction address generalizing t with
  | nil =>
    cases found
    exact ⟨.singleton _, rfl⟩
  | cons i rest ih =>
    obtain ⟨x, part, behind⟩ := Option.bind_eq_some_iff.1 found
    obtain ⟨chain, start⟩ := ih behind
    have way : t.trail (i :: rest) = t :: x.trail rest := by rw [trail, part, Option.map_some, Option.getD_some]
    rw [way, cons_append]
    refine ⟨isChain_cons.2 ⟨fun y first => ?_, chain⟩, rfl⟩
    rw [start] at first
    cases first
    exact mem_of_getElem? part

theorem trail_eq_nil : t.trail address = [] ↔ address = [] := by
  cases address <;> simp [trail]

/-! ## Parts of a node -/

theorem attrs_nodup (kind : Kind) : kind.attrs.Nodup := by
  cases kind <;> decide

theorem lookup_of_mem {v : Tree} {front back : List (Attr × Tree)} (nodup : (front.map (·.1)).Nodup)
    (mem : (a, v) ∈ front) : lookup a (front ++ back) = some v := by
  induction front with
  | nil => cases mem
  | cons field front ih =>
    obtain ⟨b, w⟩ := field
    rw [map_cons, nodup_cons] at nodup
    rw [cons_append, lookup]
    rcases mem_cons.1 mem with here | later
    · cases here
      exact if_pos rfl
    · have other : a ≠ b := by
        rintro rfl
        exact nodup.1 (mem_map.2 ⟨_, later, rfl⟩)
      rw [if_neg other]
      exact ih nodup.2 later

/-- The values of the attributes that are declared are the parts of the node. -/
theorem declared_values (arranged : Arranged kind fields) (place : Option (Option Position)) :
    (fields.filter fun field => kind.attrs.contains field.1).map (·.2) = (node kind fields place).parts := by
  obtain ⟨further, names, others⟩ := arranged
  obtain ⟨front, back, rfl, declared, rest⟩ := map_eq_append_iff.1 names
  have front_kept : (front.filter fun field => kind.attrs.contains field.1) = front := by
    refine filter_eq_self.2 fun field mem => contains_iff_mem.2 ?_
    rw [← declared]
    exact mem_map_of_mem mem
  have back_dropped : (back.filter fun field => kind.attrs.contains field.1) = [] := by
    refine filter_eq_nil_iff.2 fun field mem contained => ?_
    refine others field.1 ?_ (contains_iff_mem.1 contained)
    rw [← rest]
    exact mem_map_of_mem mem
  have nodup : (front.map (·.1)).Nodup := declared ▸ attrs_nodup kind
  have values : ∀ field ∈ front, (node kind (front ++ back) place).get field.1 = field.2 := fun field mem => by
    rw [get, get?, lookup_of_mem nodup mem, Option.getD_some]
  rw [filter_append, front_kept, back_dropped, append_nil, parts, children, Tree.declared, ← declared,
    map_map, map_map]
  exact map_congr_left fun field mem => (values field mem).symm

theorem visitsOfFields_eq (kind : Kind) (path : List Tree) (fields : List (Attr × Tree)) :
    visitsOfFields kind path fields =
      visitsOfItems path ((fields.filter fun field => kind.attrs.contains field.1).map (·.2)) := by
  induction fields with
  | nil => rfl
  | cons field fields ih =>
    rw [visitsOfFields, filter_cons, ih]
    split
    · rfl
    · rfl

/-- The visits of a tree: its own, if it is a node, and then those of its parts. -/
theorem visits_eq (arranged : t.Throughout Arranged) (path : List Tree) :
    visits path t = (if t.kind?.isSome then [⟨path, t⟩] else []) ++ visitsOfItems (path ++ [t]) t.parts := by
  cases t with
  | node kind fields place =>
    rw [Throughout] at arranged
    rw [visits, visitsOfFields_eq, declared_values arranged.1 place]
    rfl
  | list xs => rfl
  | tuple xs => rfl
  | _ => rfl

theorem throughout_of_mem_parts {x : Tree} (all : t.Throughout P) (arranged : t.Throughout Arranged)
    (mem : x ∈ t.parts) : x.Throughout P ∧ sizeOf x < sizeOf t := by
  cases t with
  | node kind fields place =>
    rw [Throughout, throughoutFields_iff] at all
    rw [← declared_values arranged.1 place] at mem
    obtain ⟨field, inside, rfl⟩ := mem_map.1 mem
    have mem := (mem_filter.1 inside).1
    have small := sizeOf_lt_of_mem mem
    refine ⟨all.2 field mem, ?_⟩
    obtain ⟨a, v⟩ := field
    simp only [Prod.mk.sizeOf_spec, node.sizeOf_spec] at small ⊢
    omega
  | list xs | tuple xs =>
    rw [Throughout, throughoutItems_iff] at all
    have small : sizeOf x < sizeOf xs := sizeOf_lt_of_mem mem
    refine ⟨all x mem, ?_⟩
    simp only [list.sizeOf_spec, tuple.sizeOf_spec]
    omega
  | _ => cases mem

/-! ## The order of visits -/

/-- The addresses of the nodes of a tree that satisfy a test, in order, and their visits. -/
structure Listed (path : List Tree) (t : Tree) (asked : List Nat → Prop) (visits : List Visit)
    (addresses : List (List Nat)) : Prop where
  sorted : addresses.Pairwise (List.Lex (· < ·))
  exact : ∀ address, address ∈ addresses ↔ asked address ∧ t.NodeAt address
  visits_eq : visits = addresses.map (visitOf path t)

/-- The address is one behind the part of the given number, or behind a later one. -/
def FromPart (n : Nat) (address : List Nat) : Prop := ∃ i rest, address = i :: rest ∧ n ≤ i

/-- The visits of the parts of a tree, from one of them on, if the visits of each are in order. -/
theorem listed_items {t : Tree} {path : List Tree} {xs : List Tree} {n : Nat} (later : t.parts.drop n = xs)
    (parts : ∀ x ∈ xs, ∃ addresses, Listed (path ++ [t]) x (fun _ => True) (visits (path ++ [t]) x) addresses) :
    ∃ addresses, Listed path t (FromPart n) (visitsOfItems (path ++ [t]) xs) addresses := by
  induction xs generalizing n with
  | nil =>
    refine ⟨[], .nil, fun address => ⟨fun none => (not_mem_nil none).elim, ?_⟩, rfl⟩
    rintro ⟨⟨i, rest, rfl, le⟩, m, found, -⟩
    obtain ⟨x, part, -⟩ := Option.bind_eq_some_iff.1 found
    have short : t.parts.length ≤ n := drop_eq_nil_iff.1 later
    rw [getElem?_eq_none (by omega)] at part
    cases part
  | cons x xs ih =>
    have here : t.parts[n]? = some x := by
      rw [← head?_drop, later, head?_cons]
    have behind : t.parts.drop (n + 1) = xs := by
      rw [← drop_drop, later, drop_one, tail_cons]
    obtain ⟨first, sorted, exact, visited⟩ := parts x mem_cons_self
    obtain ⟨others, sorted', exact', visited'⟩ := ih behind fun y mem => parts y (mem_cons_of_mem x mem)
    have into (rest : List Nat) : t.at? (n :: rest) = x.at? rest := by rw [at?, here, Option.bind_some]
    refine ⟨first.map (n :: ·) ++ others, ?_, fun address => ?_, ?_⟩
    · refine pairwise_append.2 ⟨?_, sorted', fun a mem b mem' => ?_⟩
      · exact pairwise_map.2 (sorted.imp fun less => .cons less)
      · obtain ⟨rest, -, rfl⟩ := mem_map.1 mem
        obtain ⟨⟨i, rest', rfl, le⟩, -⟩ := (exact' b).1 mem'
        exact .rel le
    · rw [mem_append, mem_map, exact']
      constructor
      · rintro (⟨rest, mem, rfl⟩ | ⟨⟨i, rest, rfl, le⟩, found⟩)
        · obtain ⟨-, m, found, isNode⟩ := (exact rest).1 mem
          exact ⟨⟨n, rest, rfl, Nat.le_refl n⟩, m, (into rest).trans found, isNode⟩
        · exact ⟨⟨i, rest, rfl, Nat.le_of_succ_le le⟩, found⟩
      · rintro ⟨⟨i, rest, rfl, le⟩, m, found, isNode⟩
        rcases Nat.eq_or_lt_of_le le with rfl | less
        · exact .inl ⟨rest, (exact rest).2 ⟨trivial, m, (into rest).symm.trans found, isNode⟩, rfl⟩
        · exact .inr ⟨⟨i, rest, rfl, less⟩, m, found, isNode⟩
    · rw [visitsOfItems, visited, visited', map_append, map_map]
      congr 1
      refine map_congr_left fun rest _ => ?_
      rw [Function.comp_apply, visitOf, visitOf, into, trail, here, Option.map_some, Option.getD_some,
        append_assoc, singleton_append]

/-- The visits of a tree at the end of a path are in order. -/
theorem exists_listed {t : Tree} (arranged : t.Throughout Arranged) (path : List Tree) :
    ∃ addresses, Listed path t (fun _ => True) (visits path t) addresses := by
  have smaller (x : Tree) (mem : x ∈ t.parts) := throughout_of_mem_parts arranged arranged mem
  obtain ⟨addresses, sorted, exact, visited⟩ := @listed_items t path t.parts 0 drop_zero
    fun x mem => have := (smaller x mem).2; exists_listed (smaller x mem).1 (path ++ [t])
  cases isNode : t.kind?.isSome with
  | true =>
    refine ⟨[] :: addresses, pairwise_cons.2 ⟨fun address mem => ?_, sorted⟩, fun address => ?_, ?_⟩
    · obtain ⟨⟨i, rest, rfl, -⟩, -⟩ := (exact address).1 mem
      exact .nil
    · rw [mem_cons, exact]
      constructor
      · rintro (rfl | ⟨-, found⟩)
        · exact ⟨trivial, t, rfl, isNode⟩
        · exact ⟨trivial, found⟩
      · rintro ⟨-, found⟩
        cases address with
        | nil => exact .inl rfl
        | cons i rest => exact .inr ⟨⟨i, rest, rfl, Nat.zero_le i⟩, found⟩
    · rw [visits_eq arranged, isNode, if_pos rfl, visited, map_cons, visitOf, trail, at?, Option.getD_some,
        append_nil, singleton_append]
  | false =>
    refine ⟨addresses, sorted, fun address => ?_, ?_⟩
    · rw [exact]
      constructor
      · exact fun ⟨_, found⟩ => ⟨trivial, found⟩
      · rintro ⟨-, m, found, is⟩
        cases address with
        | nil =>
          cases found
          exact absurd (isNode.symm.trans is) Bool.false_ne_true
        | cons i rest => exact ⟨⟨i, rest, rfl, Nat.zero_le i⟩, m, found, is⟩
    · rw [visits_eq arranged, isNode, if_neg Bool.false_ne_true, nil_append, visited]
termination_by sizeOf t

/-- **A walk visits everything once, in order.** There is one visit for each address at which a node stands, in the
lexicographic order of addresses. The path of a visit leads from the root to the node, from each tree to a part of it,
and it is empty for the root only. -/
theorem walk_preorder {t : Tree} (arranged : t.Throughout Arranged) (entered : t.isEntered = true) :
    ∃ addresses : List (List Nat), addresses.Pairwise (List.Lex (· < ·)) ∧
      (∀ address, address ∈ addresses ↔ t.NodeAt address) ∧
      t.walk = .ok (addresses.map (visitOf [] t)) ∧
      ∀ address ∈ addresses, ∃ n, t.at? address = some n ∧ visitOf [] t address = ⟨t.trail address, n⟩ ∧
        (t.trail address ++ [n]).IsChain (fun tree part => part ∈ tree.parts) ∧
        (t.trail address ++ [n]).head? = some t ∧ (t.trail address = [] ↔ address = []) := by
  obtain ⟨addresses, sorted, exact, visited⟩ := exists_listed arranged []
  refine ⟨addresses, sorted, fun address => (exact address).trans (and_iff_right trivial), ?_, fun address mem => ?_⟩
  · rw [← visited]
    cases t <;> first | rfl | cases entered
  · obtain ⟨-, n, found, -⟩ := (exact address).1 mem
    obtain ⟨chain, start⟩ := isChain_trail found
    refine ⟨n, found, ?_, chain, start, trail_eq_nil⟩
    rw [visitOf, found, Option.getD_some, nil_append]

/-- A node in a node, and a node in a set. -/
def nestedNodes : Tree := list [make .ifStatement [(.condition, make .literal [])], set [make .literal []]]

/-- The condition is visited, and the set is not entered. -/
theorem walk_preorder_nested : nestedNodes.Throughout Arranged ∧ nestedNodes.isEntered = true ∧
    ∃ addresses : List (List Nat), nestedNodes.walk = .ok (addresses.map (visitOf [] nestedNodes)) ∧
      [0] ∈ addresses ∧ [0, 1] ∈ addresses ∧ [1, 0] ∉ addresses := by
  have literal : (make .literal []).Throughout Arranged := throughout_make (arranged_make _ _) (forall_mem_nil _)
  have arranged : nestedNodes.Throughout Arranged := by
    refine throughoutItems_iff.2 (forall_mem_cons.2 ⟨throughout_make (arranged_make _ _) ?_, ?_⟩)
    · exact forall_mem_singleton.2 literal
    · exact forall_mem_singleton.2 (throughoutItems_iff.2 (forall_mem_singleton.2 literal))
  obtain ⟨addresses, -, exact, walked, -⟩ := walk_preorder arranged rfl
  refine ⟨arranged, rfl, addresses, walked, ?_, ?_, ?_⟩
  · exact (exact [0]).2 ⟨_, rfl, rfl⟩
  · exact (exact [0, 1]).2 ⟨_, rfl, rfl⟩
  · intro mem
    obtain ⟨n, found, -⟩ := (exact [1, 0]).1 mem
    cases found

end JavaSource.Tree
