import JavaSource.Printer.Unparse

/-!
# Trees without places

`Tree.bare` leaves of a tree what it says: the places of its nodes are gone, and so are the attributes that
their kinds do not declare. Two trees that differ in nothing else are the same when they are bare.
-/

namespace JavaSource.Tree

mutual

/-- The tree without places, and without attributes that are not declared. -/
def bare : Tree → Tree
  | list xs => list (bareItems xs)
  | tuple xs => tuple (bareItems xs)
  | set xs => set (bareItems xs)
  | token cls value _ javadoc _ _ => token cls value.bare none javadoc [] none
  | node kind fields _ => make kind (bareFields fields)
  | t => t

def bareItems : List Tree → List Tree
  | [] => []
  | x :: xs => x.bare :: bareItems xs

def bareFields : List (Attr × Tree) → List (Attr × Tree)
  | [] => []
  | (a, x) :: rest => (a, x.bare) :: bareFields rest

end

theorem bareItems_eq_map (xs : List Tree) : bareItems xs = xs.map bare := by
  induction xs with
  | nil => rfl
  | cons x xs ih => rw [bareItems, ih, List.map_cons]

theorem lookup_bareFields (a : Attr) (fields : List (Attr × Tree)) :
    lookup a (bareFields fields) = (lookup a fields).map bare := by
  induction fields with
  | nil => rfl
  | cons field fields ih =>
    obtain ⟨b, x⟩ := field
    rw [bareFields, lookup, lookup, ih]
    split
    · rfl
    · rfl

/-- An attribute of a bare node is the bare attribute. -/
theorem getD_lookup_bareFields (a : Attr) (fields : List (Attr × Tree)) :
    (lookup a (bareFields fields)).getD null = ((lookup a fields).getD null).bare := by
  rw [lookup_bareFields]
  cases lookup a fields with
  | none => rfl
  | some x => rfl

@[simp] theorem bare_placeAt (position : Option Position) (t : Tree) : (t.placeAt position).bare = t.bare := by
  cases t <;> rfl

variable {t v : Tree} {a : Attr}

theorem eq_text_of_bare {s : Text} (same : t.bare = text s) : t = text s := by
  cases t with
  | text u => exact same
  | _ => simp [bare, make] at same

theorem eq_nil_of_bare (same : t.bare = list []) : t = list [] := by
  cases t with
  | list xs =>
    cases xs with
    | nil => rfl
    | cons x xs => simp [bare, bareItems] at same
  | _ => simp [bare, make] at same

/-- What is a node when bare is a node, and its declared attributes are those when bare. -/
theorem attrs_of_bare {kind : Kind} {given : List (Attr × Tree)} (same : t.bare = make kind given) :
    t.kind? = some kind ∧ ∀ a ∈ kind.attrs, (t.get a).bare = (lookup a given).getD null := by
  cases t with
  | node kind' fields place =>
    simp only [bare, make, node.injEq, and_true] at same
    obtain ⟨rfl, fieldsSame⟩ := same
    refine ⟨rfl, fun a mem => ?_⟩
    have here := List.map_inj_left.1 fieldsSame a mem
    exact (getD_lookup_bareFields a fields).symm.trans (Prod.mk.inj here).2
  | _ => simp [bare, make] at same

/-- An attribute that is more than nothing is there. -/
theorem get?_of_get (is : t.get a = v) (something : v ≠ null) : t.get? a = some v := by
  rw [get] at is
  cases found : t.get? a with
  | none =>
    rw [found] at is
    exact absurd is.symm something
  | some w =>
    rw [found] at is
    exact congrArg some is

/-! ## The size of parts -/

theorem size_pos (t : Tree) : 0 < t.size := by
  cases t <;> exact Nat.succ_pos _

theorem size_le_of_lookup {fields : List (Attr × Tree)}
    (found : lookup a fields = some v) : v.size ≤ sizeOfFields fields := by
  induction fields with
  | nil => cases found
  | cons field fields ih =>
    obtain ⟨b, x⟩ := field
    rw [sizeOfFields]
    rw [lookup] at found
    split at found
    · cases found
      exact Nat.le_add_right _ _
    · exact Nat.le_trans (ih found) (Nat.le_add_left _ _)

/-- An attribute is smaller than what has it. -/
theorem size_lt_of_get? (found : t.get? a = some v) : v.size < t.size := by
  cases t with
  | node kind fields place =>
    rw [size]
    exact Nat.lt_succ_of_le (size_le_of_lookup found)
  | token cls value position javadoc fields place =>
    rw [size]
    rw [get?] at found
    split at found
    · cases found
      omega
    · have le := size_le_of_lookup found
      omega
  | _ => cases found

end JavaSource.Tree
