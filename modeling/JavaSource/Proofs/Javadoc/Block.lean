import JavaSource.Proofs.Javadoc.Lines

/-!
# The views of a documentation block

A documentation block keeps every tag, and the tags with a meaning of their own a second time. The tags, and the
exceptions too, are entries that are made at the first use of a key and changed by the later uses: `keys_record` and
`lookup_record`. `ofTags_eq` says what each view holds after any number of tags, and `ofTags_consistent` that the views
agree.
-/

namespace JavaSource.DocBlock

open List Text

/-! ## Entries -/

section

variable {α β : Type} (key : Text) (change : Option α → α) (entries : List (Text × α))

theorem keys_update : (update key change entries).map Prod.fst =
    if key ∈ entries.map Prod.fst then entries.map Prod.fst else entries.map Prod.fst ++ [key] := by
  induction entries with
  | nil => rfl
  | cons entry entries ih =>
    rw [update]
    split
    · rename_i same
      rw [← eq_of_beq same, map_cons, map_cons, if_pos mem_cons_self]
    · rename_i other
      have other : key ≠ entry.1 := fun same => other (beq_iff_eq.2 same.symm)
      simp only [map_cons, ih, mem_cons, other, false_or]
      split <;> rfl

theorem lookup_update (name : Text) : (update key change entries).lookup name =
    if name = key then some (change (entries.lookup key)) else entries.lookup name := by
  have apart {k k' : Text} (other : k ≠ k') : (k == k') = false := beq_false_of_ne other
  induction entries with
  | nil => by_cases same : name = key <;> simp [update, lookup_cons, same, apart]
  | cons entry entries ih =>
    obtain ⟨k, v⟩ := entry
    rw [update]
    by_cases here : k = key
    · subst here
      by_cases same : name = k <;> simp [lookup_cons, same, apart]
    · rw [if_neg (by simpa using here), lookup_cons, ih, lookup_cons, apart (Ne.symm here)]
      by_cases same : name = k
      · simp [same, here]
      · simp [lookup_cons, same, apart]

theorem eraseDups_concat (keys : List Text) :
    (keys ++ [key]).eraseDups = if key ∈ keys then keys.eraseDups else keys.eraseDups ++ [key] := by
  rw [eraseDups_append, cons_removeAll]
  by_cases known : key ∈ keys <;> simp [known, eraseDups_cons]

/-- The entries that come of some uses of keys: the first use of a key makes its entry, and each use combines what the
entry holds with what it brings. -/
def record (combine : Option α → β → α) (uses : List (Text × β)) : List (Text × α) :=
  uses.foldl (fun entries use => update use.1 (combine · use.2) entries) []

variable (combine : Option α → β → α) (uses : List (Text × β))

theorem record_concat (use : Text × β) :
    record combine (uses ++ [use]) = update use.1 (combine · use.2) (record combine uses) :=
  foldl_concat ..

/-- The keys stand in the order of their first use. -/
theorem keys_record : (record combine uses).map Prod.fst = (uses.map Prod.fst).eraseDups := by
  induction uses using reverseRecOn with
  | nil => rfl
  | append_singleton uses use ih =>
    rw [record_concat, keys_update, ih, map_append, map_singleton, eraseDups_concat]
    simp only [mem_eraseDups]

/-- An entry holds what the uses of its key come to, one after the other. -/
theorem lookup_record (name : Text) : (record combine uses).lookup name =
    ((uses.filter (·.1 == name)).map Prod.snd).foldl (fun old x => some (combine old x)) none := by
  induction uses using reverseRecOn with
  | nil => rfl
  | append_singleton uses use ih =>
    rw [record_concat, lookup_update, filter_append, map_append, foldl_append, ← ih]
    by_cases same : use.1 = name
    · subst same
      simp
    · simp [same, Ne.symm same]

end

variable {α : Type}

/-- Uses that add up keep everything. -/
theorem foldl_append_values (values : List α) :
    values.foldl (fun old x => some (old.getD [] ++ [x])) none = if values = [] then none else some values := by
  induction values using reverseRecOn with
  | nil => rfl
  | append_singleton values x ih =>
    rw [foldl_concat, ih]
    by_cases first : values = [] <;> simp [first]

/-- Of uses that override each other the last is kept. -/
theorem foldl_last (values : List α) : values.foldl (fun _ x => some x) none = values.getLast? := by
  induction values using reverseRecOn with
  | nil => rfl
  | append_singleton values x ih => rw [foldl_concat, getLast?_concat]

/-! ## Words -/

/-- The first word of a value, and what follows it on one line. -/
def leadingWord (value : Text) : Text × Text :=
  (value.takeWhile (!isBlank ·), joinLines (trimLeft (value.dropWhile (!isBlank ·))))

/-- No white space is left at the end. -/
theorem eq_nil_of_trimRight {text front w : Text} (split : trimRight text = front ++ w) (blank : w.Blank) : w = [] := by
  have same : trimRight (front ++ w) = front ++ w := by
    rw [← split, trimRight, trimRight, reverse_reverse, dropWhile_idempotent]
  have short : (trimRight front).length ≤ front.length := by
    rw [trimRight, length_reverse]
    exact (length_dropWhile_le _ _).trans_eq length_reverse
  rw [trimRight_append blank] at same
  rw [same, length_append] at short
  exact length_eq_zero_iff.1 (by omega)

/-- No white space is left at the start. -/
theorem isBlank_of_trim {text rest : Text} {c : CodePoint} (starts : trim text = c :: rest) : isBlank c = false := by
  have front : trimRight (trimLeft text) <+: trimLeft text := by
    rw [trimRight, ← reverse_suffix, reverse_reverse]
    exact dropWhile_suffix _
  obtain ⟨w, split⟩ := front
  exact of_dropWhile_cons (split.symm.trans (congrArg (· ++ w) starts))

/-- If a value without white space around it has no second word, it is its first word. -/
theorem wordAndRest_trim (value : Text) : wordAndRest (trim value) = leadingWord (trim value) := by
  cases starts : trim value with
  | nil => rfl
  | cons c rest =>
    have visible := isBlank_of_trim starts
    have body : trimLeft (c :: rest) = c :: rest := dropWhile_cons_of_neg (by simp [visible])
    have word : (c :: rest).takeWhile (!isBlank ·) ≠ [] := by simp [visible]
    have split := takeWhile_append_dropWhile (p := (!isBlank ·)) (l := c :: rest)
    rw [wordAndRest, firstWord?, body, leadingWord]
    by_cases single : trimLeft ((c :: rest).dropWhile (!isBlank ·)) = []
    · have nothing := eq_nil_of_trimRight (starts.trans split.symm) (dropWhile_isBlank_eq_nil.1 single)
      rw [nothing, append_nil] at split
      rw [split, nothing]
      simp [trimLeft]
    · simp [single, word]

/-! ## Blocks -/

def ofTags (tags : List (Text × Text)) : DocBlock := tags.foldl (fun d tag => d.addBlock tag.1 tag.2) {}

def given (tags : List (Text × Text)) (name : Text) : List Text := (tags.filter (·.1 == name)).map (trim ·.2)

def thrown (tags : List (Text × Text)) : List (Text × Text) :=
  (tags.filter fun tag => tag.1 == ofString "throws" || tag.1 == ofString "exception").map (leadingWord <| trim ·.2)

/-- The values that a block has for a name. -/
def valuesOf (d : DocBlock) (name : Text) : List Text := (d.tags.lookup name).getD []

/-- One more tag: each view takes from it what concerns the view. -/
theorem addBlock_eq (name value : Text) (d : DocBlock) : d.addBlock name value =
    { d with
      tags := update name (fun values => values.getD [] ++ [trim value]) d.tags
      params := d.params ++ if name = ofString "param" then [leadingWord (trim value)] else []
      throws := if name = ofString "throws" ∨ name = ofString "exception" then
          update (leadingWord (trim value)).1 (fun _ => (leadingWord (trim value)).2) d.throws else d.throws
      returns := if name = ofString "return" then some (trim value) else d.returns
      authors := d.authors ++ if name = ofString "author" then [trim value] else []
      deprecated := d.deprecated || name == ofString "deprecated" } := by
  rw [addBlock, ← wordAndRest_trim]
  by_cases thrown : name = ofString "throws" ∨ name = ofString "exception"
  · rcases thrown with rfl | rfl <;> simp [interpret, ofString]
  · by_cases param : name = ofString "param"
    · subst param
      simp [interpret, ofString]
    by_cases returned : name = ofString "return"
    · subst returned
      simp [interpret, ofString]
    by_cases author : name = ofString "author"
    · subst author
      simp [interpret, ofString]
    by_cases deprecated : name = ofString "deprecated"
    · subst deprecated
      simp [interpret, ofString]
    simp [interpret, thrown, param, returned, author, deprecated]

theorem ofTags_concat (tags : List (Text × Text)) (tag : Text × Text) :
    ofTags (tags ++ [tag]) = (ofTags tags).addBlock tag.1 tag.2 :=
  foldl_concat ..

theorem given_concat (tags : List (Text × Text)) (tag : Text × Text) (name : Text) :
    given (tags ++ [tag]) name = given tags name ++ if tag.1 = name then [trim tag.2] else [] := by
  rw [given, filter_append, map_append, given]
  by_cases same : tag.1 = name <;> simp [same]

theorem given_eq_nil_iff (tags : List (Text × Text)) (name : Text) :
    given tags name = [] ↔ name ∉ tags.map Prod.fst := by
  rw [given, map_eq_nil_iff, filter_eq_nil_iff, mem_map]
  refine ⟨?_, fun unused tag mem same => unused ⟨tag, mem, eq_of_beq same⟩⟩
  rintro none_given ⟨tag, mem, same⟩
  exact none_given tag mem (beq_iff_eq.2 same)

/-- What the views of a block hold, by induction on the tags. -/
theorem ofTags_eq (tags : List (Text × Text)) : ofTags tags =
    { tags := record (fun old value => old.getD [] ++ [value]) (tags.map fun tag => (tag.1, trim tag.2))
      params := (given tags (ofString "param")).map leadingWord
      throws := record (fun _ said => said) (thrown tags)
      returns := (given tags (ofString "return")).getLast?
      authors := given tags (ofString "author")
      deprecated := (tags.map Prod.fst).contains (ofString "deprecated") } := by
  induction tags using reverseRecOn with
  | nil => rfl
  | append_singleton tags tag ih =>
    have exceptions : thrown (tags ++ [tag]) = thrown tags ++
        if tag.1 = ofString "throws" ∨ tag.1 = ofString "exception" then [leadingWord (trim tag.2)] else [] := by
      rw [thrown, filter_append, map_append, thrown]
      by_cases names : tag.1 = ofString "throws" ∨ tag.1 = ofString "exception" <;> simp [names]
    rw [ofTags_concat, addBlock_eq, ih]
    simp only [given_concat, exceptions, map_append, map_singleton, record_concat]
    congr 1
    case e_returns => split <;> simp
    case e_params => split <;> rfl
    case e_deprecated =>
      rw [Bool.eq_iff_iff, Bool.or_eq_true_iff, contains_iff_mem, contains_iff_mem, mem_append, mem_singleton,
        beq_iff_eq, @eq_comm _ tag.1]
    case e_throws => split <;> simp [record_concat]

/-- **The views of a documentation block agree.** After any tags, in any order and under any names, the block has for
each name that was used the values given under it, in their order, and the names stand in the order of their first use.
The authors, the parameters, the return value and the mark of what is not to be used any more are those that follow
from these values. The exceptions stand in the order in which the tags of both names first named them, each with what
the last of these tags said about it. -/
theorem ofTags_consistent (tags : List (Text × Text)) (name : Text) :
    (ofTags tags).tags.map Prod.fst = (tags.map Prod.fst).eraseDups ∧
    (ofTags tags).tags.lookup name = (if name ∈ tags.map Prod.fst then some (given tags name) else none) ∧
    (ofTags tags).authors = (ofTags tags).valuesOf (ofString "author") ∧
    ((ofTags tags).deprecated = true ↔ ofString "deprecated" ∈ (ofTags tags).tags.map Prod.fst) ∧
    (ofTags tags).returns = ((ofTags tags).valuesOf (ofString "return")).getLast? ∧
    (ofTags tags).params = ((ofTags tags).valuesOf (ofString "param")).map leadingWord ∧
    (ofTags tags).throws.map Prod.fst = ((thrown tags).map Prod.fst).eraseDups ∧
    (ofTags tags).throws.lookup name = (((thrown tags).filter (·.1 == name)).map Prod.snd).getLast? := by
  have kept (name : Text) : (ofTags tags).tags.lookup name =
      if name ∈ tags.map Prod.fst then some (given tags name) else none := by
    rw [ofTags_eq, lookup_record, foldl_append_values, filter_map, map_map]
    change (if given tags name = [] then none else some (given tags name)) = _
    by_cases used : name ∈ tags.map Prod.fst
    · rw [if_pos used, if_neg fun nothing => (given_eq_nil_iff tags name).1 nothing used]
    · rw [if_neg used, if_pos ((given_eq_nil_iff tags name).2 used)]
  have values (name : Text) : (ofTags tags).valuesOf name = given tags name := by
    rw [valuesOf, kept]
    split
    · rfl
    · rename_i unused
      exact ((given_eq_nil_iff tags name).2 unused).symm
  have keys : (ofTags tags).tags.map Prod.fst = (tags.map Prod.fst).eraseDups := by
    rw [ofTags_eq, keys_record, map_map]
    rfl
  refine ⟨keys, kept name, ?_, ?_, ?_, ?_, ?_, ?_⟩
  · rw [values, ofTags_eq]
  · rw [keys, mem_eraseDups, ofTags_eq, contains_iff_mem]
  · rw [values, ofTags_eq]
  · rw [values, ofTags_eq]
  · rw [ofTags_eq, keys_record]
  · rw [ofTags_eq, lookup_record, foldl_last]

end JavaSource.DocBlock
