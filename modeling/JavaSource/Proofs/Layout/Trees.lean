import JavaSource.Grammar.Body

/-!
# Trees without layout

`Tree.plain` takes the places out of a tree, and the documentation too unless that is kept. What the rules of
the grammar do with trees, they do with plain trees in the same way: they set attributes and read them, name
declarators and methods, and build operations. So of two trees with one plain tree they make two trees with one
plain tree.
-/

namespace JavaSource

open List

namespace Tree

mutual

/-- The tree without places; the documentation goes too, unless `docs` is set. -/
def plain (docs : Bool) : Tree → Tree
  | list xs => list (plainItems docs xs)
  | tuple xs => tuple (plainItems docs xs)
  | set xs => set (plainItems docs xs)
  | token cls value _ javadoc fields _ =>
    token cls (value.plain docs) none (if docs then javadoc else none) (plainFields docs fields) none
  | node kind fields _ => node kind (plainFields docs fields) none
  | t => t

def plainItems (docs : Bool) : List Tree → List Tree
  | [] => []
  | x :: xs => x.plain docs :: plainItems docs xs

def plainFields (docs : Bool) : List (Attr × Tree) → List (Attr × Tree)
  | [] => []
  | (a, x) :: rest => (a, if a = .documentation ∧ docs = false then null else x.plain docs) :: plainFields docs rest

end

/-- What is left of the value of an attribute. -/
def kept (docs : Bool) (a : Attr) (v : Tree) : Tree :=
  if a = .documentation ∧ docs = false then null else v.plain docs

section

variable {docs : Bool}

theorem kept_of_ne {a : Attr} (other : a ≠ .documentation) (v : Tree) : kept docs a v = v.plain docs :=
  if_neg fun both => other both.1

theorem plainItems_cons (x : Tree) (xs : List Tree) :
    plainItems docs (x :: xs) = x.plain docs :: plainItems docs xs := rfl

@[simp] theorem plainItems_eq (xs : List Tree) : plainItems docs xs = xs.map (plain docs) := by
  induction xs with
  | nil => rfl
  | cons x xs ih => rw [plainItems_cons, ih, map_cons]

@[simp] theorem plainFields_nil : plainFields docs [] = [] := rfl

@[simp] theorem plainFields_cons (a : Attr) (v : Tree) (rest : List (Attr × Tree)) :
    plainFields docs ((a, v) :: rest) = (a, kept docs a v) :: plainFields docs rest := rfl

/-! ## Nodes and tokens -/

theorem plain_node (kind : Kind) (fields : List (Attr × Tree)) (place : Option (Option Position)) :
    (node kind fields place).plain docs = node kind (plainFields docs fields) none := rfl

theorem plain_token (cls : TokenClass) (value : Tree) (position : Option Position) (javadoc : Option Text)
    (fields : List (Attr × Tree)) (place : Option (Option Position)) :
    (token cls value position javadoc fields place).plain docs =
      token cls (value.plain docs) none (if docs then javadoc else none) (plainFields docs fields) none := rfl

/-! ## Leaves -/

@[simp] theorem plain_null : null.plain docs = null := rfl

@[simp] theorem plain_text (s : Text) : (text s).plain docs = text s := rfl

@[simp] theorem plain_bool (b : Bool) : (bool b).plain docs = bool b := rfl

@[simp] theorem plain_list (xs : List Tree) : (list xs).plain docs = list (xs.map (plain docs)) :=
  congrArg list (plainItems_eq xs)

@[simp] theorem plain_ofTexts (xs : List Text) : (ofTexts xs).plain docs = ofTexts xs := by
  rw [ofTexts, plain_list, map_map]
  rfl

@[simp] theorem plain_dimensions (n : Nat) : (dimensions n).plain docs = dimensions n := by
  rw [dimensions, plain_list, map_replicate, plain_null]

@[simp] theorem plain_setOf (texts : List Text) :
    (Grammar.Rule.setOf texts).plain docs = Grammar.Rule.setOf texts := by
  refine congrArg set ((plainItems_eq _).trans ?_)
  rw [map_map]
  rfl

@[simp] theorem plain_ofList? (found : Option (List Tree)) :
    (ofList? found).plain docs = ofList? (found.map (List.map (plain docs))) := by
  cases found with
  | none => rfl
  | some ts => exact plain_list ts

/-! ## Attributes -/

theorem lookup_plainFields (a : Attr) (fields : List (Attr × Tree)) :
    lookup a (plainFields docs fields) = (lookup a fields).map (kept docs a) := by
  induction fields with
  | nil => rfl
  | cons field fields ih =>
    obtain ⟨b, x⟩ := field
    rw [plainFields_cons, lookup, lookup, ih]
    split
    · rename_i same
      rw [same, Option.map_some]
    · rfl

theorem kept_null (a : Attr) : kept docs a null = null := by
  rw [kept, plain_null, ite_self]

theorem getD_lookup_plainFields (a : Attr) (fields : List (Attr × Tree)) :
    (lookup a (plainFields docs fields)).getD null = kept docs a ((lookup a fields).getD null) := by
  rw [lookup_plainFields]
  cases lookup a fields with
  | none => exact (kept_null a).symm
  | some v => rfl

/-- A node that is made of attributes, without layout, is made of the attributes without layout. -/
@[simp] theorem plain_make (kind : Kind) (given : List (Attr × Tree)) :
    (make kind given).plain docs = make kind (plainFields docs given) := by
  have fields (attrs : List Attr) :
      plainFields docs (attrs.map fun a => (a, (lookup a given).getD null)) =
        attrs.map fun a => (a, (lookup a (plainFields docs given)).getD null) := by
    induction attrs with
    | nil => rfl
    | cons a attrs ih =>
      rw [map_cons, map_cons, plainFields_cons, ih, getD_lookup_plainFields]
  rw [make, plain_node, fields]
  rfl

theorem plainFields_assign (a : Attr) (v : Tree) (fields : List (Attr × Tree)) :
    plainFields docs (assign a v fields) = assign a (kept docs a v) (plainFields docs fields) := by
  induction fields with
  | nil => rfl
  | cons field fields ih =>
    obtain ⟨b, x⟩ := field
    rw [assign, plainFields_cons, assign]
    split
    · rfl
    · rw [plainFields_cons, ih]

@[simp] theorem plain_put (t : Tree) (a : Attr) (v : Tree) :
    (t.put a v).plain docs = (t.plain docs).put a (kept docs a v) := by
  cases t with
  | node kind fields place => simp only [put, plain_node, plainFields_assign]
  | token cls value position javadoc fields place => simp only [put, plain_token, plainFields_assign]
  | _ => rfl

@[simp] theorem plain_placeAt (position : Option Position) (t : Tree) :
    (t.placeAt position).plain docs = t.plain docs := by
  cases t <;> rfl

theorem get_plain (t : Tree) (a : Attr) : (t.plain docs).get a = kept docs a (t.get a) := by
  cases t with
  | node kind fields place => exact getD_lookup_plainFields a fields
  | token cls value position javadoc fields place =>
    simp only [get, get?, plain_token]
    split
    · rename_i isValue
      rw [Option.getD_some, Option.getD_some, isValue, kept_of_ne (by decide)]
    · exact getD_lookup_plainFields a fields
  | _ => exact (kept_null a).symm

theorem kind?_plain (t : Tree) : (t.plain docs).kind? = t.kind? := by
  cases t <;> rfl

theorem isA_plain (docs : Bool) (t : Tree) (kind : Kind) : (t.plain docs).isA kind = t.isA kind := by
  rw [isA, isA, kind?_plain]

theorem isTrue_plain (docs : Bool) (t : Tree) : (t.plain docs).isTrue = t.isTrue := by
  cases t with
  | list xs | tuple xs | set xs =>
    -- whether there are items is all that counts
    cases xs <;> rfl
  | _ => rfl

theorem items_plain (t : Tree) : (t.plain docs).items = t.items.map (plain docs) := by
  cases t with
  | list xs => rw [plain_list, items, items]
  | _ => rfl

end

/-! ## Trees with one plain tree -/

section

variable {docs : Bool} {t u : Tree}

theorem isA_of_plain (same : t.plain docs = u.plain docs) (kind : Kind) : t.isA kind = u.isA kind := by
  rw [← isA_plain docs t, same, isA_plain]

/-- What counts as something is kept, whatever the layout. -/
theorem filter_isTrue_of_plain {ts us : List Tree} (same : ts.map (plain docs) = us.map (plain docs)) :
    (ts.filter isTrue).map (plain docs) = (us.filter isTrue).map (plain docs) := by
  have filtered (xs : List Tree) : (xs.filter isTrue).map (plain docs) = (xs.map (plain docs)).filter isTrue := by
    rw [filter_map]
    congr 1
    exact filter_congr fun x _ => (isTrue_plain docs x).symm
  rw [filtered, filtered, same]

end

end Tree

namespace Grammar

open JavaSource.Tree

section

variable {docs : Bool}

/-! ## What rules do with trees -/

@[simp] theorem plain_addDimensions (type further : Tree) :
    (addDimensions type further).plain docs = addDimensions (type.plain docs) (further.plain docs) := by
  rw [addDimensions, addDimensions, plain_put, get_plain, kept_of_ne (by decide), kept_of_ne (by decide), plain_list,
    map_append, items_plain, items_plain]

@[simp] theorem plain_nameFirst (name : Text) (declaration : Tree) :
    (nameFirst name declaration).plain docs = nameFirst name (declaration.plain docs) := by
  rw [nameFirst, nameFirst, get_plain, kept_of_ne (by decide), items_plain]
  cases (declaration.get .declarators).items with
  | nil => rfl
  | cons first rest =>
    simp only [map_cons, plain_put, kept_of_ne (show Attr.declarators ≠ .documentation by decide), plain_list,
      kept_of_ne (show Attr.name ≠ .documentation by decide), plain_text]

@[simp] theorem plain_nameMethod (name : Text) (type method : Tree) :
    (nameMethod name type method).plain docs = nameMethod name (type.plain docs) (method.plain docs) := by
  simp only [nameMethod, plain_put, kept_of_ne (show Attr.returnType ≠ .documentation by decide),
    kept_of_ne (show Attr.name ≠ .documentation by decide), plain_text, plain_addDimensions, get_plain,
    kept_of_ne (show Attr.dimensions ≠ .documentation by decide)]

@[simp] theorem plain_nameMember (name : Text) (type member : Tree) : (Body.nameMember name type member).plain docs =
      Body.nameMember name (type.plain docs) (member.plain docs) := by
  rw [Body.nameMember, Body.nameMember, isA_plain]
  split
  · exact plain_nameMethod name type member
  · rw [plain_nameFirst, plain_put, kept_of_ne (by decide)]

@[simp] theorem plain_declarator (name : Tree) (rest : DeclaratorRest) : (Body.declarator name rest).plain docs =
      Body.declarator (name.plain docs) ⟨rest.dimensions, rest.initializer.plain docs⟩ := by
  simp [Body.declarator, kept]

@[simp] theorem plain_segmentsType (segments : List (Text × Option (List Tree))) :
    (Body.segmentsType segments).plain docs =
      Body.segmentsType (segments.map (Prod.map id (Option.map (List.map (plain docs))))) := by
  induction segments with
  | nil => rfl
  | cons segment rest ih =>
    obtain ⟨name, arguments⟩ := segment
    simp [Body.segmentsType, kept, ih]

theorem qualify_of_plain {suffix suffix' : Tree} (same : suffix.plain docs = suffix'.plain docs) (names : List Text)
    (start start' : Option Token) :
    (Body.qualify names start suffix).plain docs = (Body.qualify names start' suffix').plain docs := by
  simp only [Body.qualify, plain_put, plain_placeAt, isA_of_plain same]
  split
  · rw [plain_put, plain_put, same]
  · split
    · rw [plain_put, plain_put, same]
    · rw [same]

/-! ## Operations -/

theorem isOperatorOf_plain (level : List Text) (t : Tree) : isOperatorOf level (t.plain docs) = isOperatorOf level t
    := by
  cases t <;> rfl

theorem cut_plain (level : List Text) (parts : List Tree) : cut level (parts.map (plain docs)) =
      ((cut level parts).1.map (plain docs),
        (cut level parts).2.map fun piece => (piece.1.plain docs, piece.2.map (plain docs))) := by
  fun_induction cut level parts with
  | case1 operand operator next rest piece more cutRest isOperator ih =>
    simp only [map_cons, cutRest] at ih
    simp only [map_cons, cut, ih, isOperatorOf_plain, isOperator, if_true, map_nil]
  | case2 operand operator next rest piece more cutRest noOperator ih =>
    simp only [map_cons, cutRest] at ih
    simp only [map_cons, cut, ih, isOperatorOf_plain, noOperator, Bool.false_eq_true, if_false]
  | case3 parts short =>
    rcases parts with _ | ⟨a, _ | ⟨b, _ | ⟨c, rest⟩⟩⟩
    · rfl
    · rfl
    · rfl
    · exact absurd rfl (short a b c rest)

@[simp] theorem plain_operation (left operator right : Tree) : (operation left operator right).plain docs =
      operation (left.plain docs) (operator.plain docs) (right.plain docs) := by
  simp [operation, kept]

def joinTree (tighter : List (List Text)) (left : Tree) (piece : Tree × List Tree) : Option Tree :=
  (operationTree? tighter piece.2).map (operation left piece.1)

variable {parts : List Tree}

theorem operationTree?_several (level : List Text) (tighter : List (List Text))
    (several : ∀ part, parts ≠ [part]) : operationTree? (level :: tighter) parts =
      (operationTree? tighter (cut level parts).1).bind fun first =>
        (cut level parts).2.foldlM (joinTree tighter) first := by
  have join : joinTree tighter = fun left piece => do
      let right ← operationTree? tighter piece.2
      return operation left piece.1 right := by
    funext left piece
    cases found : operationTree? tighter piece.2 <;> simp [joinTree, found]
  rw [join]
  rcases parts with _ | ⟨a, _ | ⟨b, rest⟩⟩
  · rfl
  · exact absurd rfl (several a)
  · rfl

/-- Pieces whose trees are built without layout are joined without layout. -/
theorem foldlM_joinTree_plain {tighter : List (List Text)}
    (built : ∀ parts, operationTree? tighter (parts.map (plain docs)) =
      (operationTree? tighter parts).map (plain docs)) (pieces : List (Tree × List Tree)) (first : Tree) :
    (pieces.map fun piece => (piece.1.plain docs, piece.2.map (plain docs))).foldlM (joinTree tighter)
        (first.plain docs) =
      (pieces.foldlM (joinTree tighter) first).map (plain docs) := by
  induction pieces generalizing first with
  | nil => rfl
  | cons piece pieces ih =>
    rw [map_cons, foldlM_cons, foldlM_cons, joinTree, joinTree, built]
    cases operationTree? tighter piece.2 with
    | none => rfl
    | some right =>
      have here := ih (operation first piece.1 right)
      rw [plain_operation] at here
      exact here

/-- **The tree of a chain** without layout is the tree of the chain without layout. The induction is on the
levels: the pieces between the operators of one level are built by the tighter ones. -/
theorem operationTree?_plain (docs : Bool) (levels : List (List Text)) (parts : List Tree) :
    operationTree? levels (parts.map (plain docs)) = (operationTree? levels parts).map (plain docs) := by
  induction levels generalizing parts with
  | nil => rcases parts with _ | ⟨a, _ | ⟨b, rest⟩⟩ <;> rfl
  | cons level tighter ih =>
    by_cases single : ∃ part, parts = [part]
    · obtain ⟨part, rfl⟩ := single
      rfl
    · have several : ∀ part, parts ≠ [part] := fun part same => single ⟨part, same⟩
      have severalPlain : ∀ part, parts.map (plain docs) ≠ [part] := by
        intro part same
        obtain ⟨first, rfl, -⟩ := map_eq_singleton_iff.1 same
        exact several first rfl
      rw [operationTree?_several level tighter several, operationTree?_several level tighter severalPlain, cut_plain,
        ih]
      cases operationTree? tighter (cut level parts).1 with
      | none => rfl
      | some first => exact foldlM_joinTree_plain ih _ first

theorem buildOperation_zero (a b : Tree) (rest : List Tree) : buildOperation 0 (a :: b :: rest) =
      (operationTree? operatorLevels (a :: b :: rest)).elim (.error .noOperator) .ok := by
  have levels : levelsFrom? 0 = some operatorLevels := rfl
  cases built : operationTree? operatorLevels (a :: b :: rest) with
  | none => cases rest <;> simp [buildOperation, levels, built]
  | some tree => cases rest <;> simp [buildOperation, levels, built]

/-- That no operation can be built is no syntax error. -/
theorem not_illegal_of_buildOperation {start : Int} {failure : ParseFailure}
    (fails : buildOperation start parts = .error failure) : failure.isIllegal = false := by
  rcases failure_of_buildOperation fails with rfl | rfl <;> rfl

/-- Operations that are built of parts with one plain form have one plain form. -/
theorem buildOperation_of_plain {parts' : List Tree} (same : parts.map (plain docs) = parts'.map (plain docs)) :
    (buildOperation 0 parts).map (plain docs) = (buildOperation 0 parts').map (plain docs) := by
  have built (parts : List Tree) :
      (buildOperation 0 parts).map (plain docs) = buildOperation 0 (parts.map (plain docs)) := by
    rcases parts with _ | ⟨a, _ | ⟨b, rest⟩⟩
    · rfl
    · rfl
    · have tree := operationTree?_plain docs operatorLevels (a :: b :: rest)
      rw [map_cons, map_cons] at tree ⊢
      rw [buildOperation_zero, buildOperation_zero, tree]
      cases operationTree? operatorLevels (a :: b :: rest) <;> rfl
  rw [built, built, same]

end

end Grammar

end JavaSource
