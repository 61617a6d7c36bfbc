import JavaSource.Proofs.Lexer.Translation

/-!
# Escapes without four digits

Behind a marker the reader of numbers takes more than four hexadecimal digits for a code: blanks, signs, underscores
and fewer characters at the end of the text. And where the text ends right behind a marker, nothing is read at all, and
what was copied since the last escape is copied once more. `Decodes` says what comes out of a text in this way, and
`StopsAt` where decoding cannot go on: at the first marker with characters behind it that are no number, or a negative
one. Only in the first of these cases is there a complaint about the escape: `tokenize_malformed_escape`.
-/

open List JavaSource.Text

namespace JavaSource.Lexer

/-- What is decoded of a text if a number that is not negative stands behind each marker but one at the very end. What
was copied since the last escape is there twice if the text ends with a marker. -/
inductive Decodes : Text → Text → Prop where
  | last {since : Text} : Copied since → Decodes since since
  | lone {since : Text} : Copied since → Decodes (since ++ ['\\'.toNat]) (since ++ ['\\'.toNat])
  | cut {since : Text} {us : Nat} : Copied since → 0 < us →
    Decodes (since ++ '\\'.toNat :: Text.copies us 'u') (since ++ (since ++ '\\'.toNat :: Text.copies us 'u'))
  | escape {since : Text} {us : Nat} {digits : Text} {n : Nat} {rest decoded : Text} : Copied since → 0 < us →
    Text.hexNumber? digits = some (n : Int) → (digits ++ rest).take 4 = digits → Decodes rest decoded →
    Decodes (since ++ '\\'.toNat :: (Text.copies us 'u' ++ (digits ++ rest))) (since ++ n :: decoded)

/-- The characters behind a marker are no code: no number, or a negative one. -/
def NoCode (after : Text) : Prop := after ≠ [] ∧ ∀ n : Nat, Text.hexNumber? (after.take 4) ≠ some (n : Int)

/-- The first marker behind which there are characters that are no code. -/
structure StopsAt (text before : Text) (us : Nat) (after : Text) : Prop where
  marker : IsMarker text before us after
  noCode : NoCode after
  first : ∀ before' us' after', IsMarker text before' us' after' → NoCode after' → before.length ≤ before'.length

/-- A text has at most one such marker. -/
theorem StopsAt.unique {text before before' after after' : Text} {us us' : Nat} (stops : StopsAt text before us after)
    (stops' : StopsAt text before' us' after') : before = before' ∧ us = us' ∧ after = after' := by
  have le := stops.first _ _ _ stops'.marker stops'.noCode
  have ge := stops'.first _ _ _ stops.marker stops.noCode
  have same := stops.marker.split.symm.trans stops'.marker.split
  obtain ⟨rfl, behind⟩ := append_inj same (Nat.le_antisymm le ge)
  injection behind with _ behind
  obtain ⟨rfl, rfl⟩ := copies_append_inj behind stops.marker.whole stops'.marker.whole
  exact ⟨rfl, rfl, rfl⟩

section Escape

variable {since : Text} {us : Nat} {digits rest : Text}

/-- The markers of a text that starts with copied characters and an escape that has no backslash in it. -/
theorem Copied.isMarker_escape (copied : Copied since) (pos : 0 < us) (none_inside : '\\'.toNat ∉ digits)
    (whole : (digits ++ rest).head? ≠ some 'u'.toNat) {before : Text} {us' : Nat} {after : Text} :
    IsMarker (since ++ '\\'.toNat :: (copies us 'u' ++ (digits ++ rest))) before us' after ↔
      (before = since ∧ us' = us ∧ after = digits ++ rest) ∨
        ∃ front, before = since ++ ('\\'.toNat :: (copies us 'u' ++ digits) ++ front) ∧
          IsMarker rest front us' after := by
  rw [copied.unmarked]
  constructor
  · rintro ⟨behind, rfl, marker⟩
    rcases (Lexer.isMarker_escape pos none_inside whole).1 marker with ⟨rfl, here⟩ | ⟨front, rfl, later⟩
    · exact .inl ⟨append_nil since, here⟩
    · exact .inr ⟨front, rfl, later⟩
  · rintro (⟨rfl, here⟩ | ⟨front, rfl, later⟩)
    · exact ⟨[], (append_nil _).symm, (Lexer.isMarker_escape pos none_inside whole).2 (.inl ⟨rfl, here⟩)⟩
    · exact ⟨_, rfl, (Lexer.isMarker_escape pos none_inside whole).2 (.inr ⟨front, rfl, later⟩)⟩

/-- Characters with a code hold no backslash. -/
theorem clean_of_hexNumber? {n : Int} (number : hexNumber? digits = some n) : '\\'.toNat ∉ digits := by
  intro mem
  rw [hexNumber?_of_mem noHex_backslash mem] at number
  cases number

theorem head?_of_hexNumber? {n : Int} (number : hexNumber? digits = some n) (rest : Text) :
    (digits ++ rest).head? ≠ some 'u'.toNat := by
  obtain ⟨c, more, rfl, ne⟩ := exists_cons_of_hexNumber? number
  simpa using ne

/-- Decoding stops at a marker behind an escape with a code if it does so in the text behind the escape. -/
theorem StopsAt.behind {n : Nat} (copied : Copied since) (pos : 0 < us)
    (number : hexNumber? digits = some (n : Int)) (whole : (digits ++ rest).take 4 = digits)
    {front after : Text} {us' : Nat} (stops : StopsAt rest front us' after) :
    StopsAt (since ++ '\\'.toNat :: (copies us 'u' ++ (digits ++ rest)))
      (since ++ ('\\'.toNat :: (copies us 'u' ++ digits) ++ front)) us' after := by
  have markers := @Copied.isMarker_escape _ _ _ _ copied pos (clean_of_hexNumber? number)
    (head?_of_hexNumber? number rest)
  refine ⟨markers.2 (.inr ⟨front, rfl, stops.marker⟩), stops.noCode, ?_⟩
  intro before' us'' after' marker noCode
  rcases markers.1 marker with ⟨rfl, rfl, rfl⟩ | ⟨front', rfl, later⟩
  · rw [NoCode, whole] at noCode
    exact absurd number (noCode.2 n)
  · have le := stops.first front' us'' after' later noCode
    simp only [length_append]
    omega

/-- Decoding stops at the first marker if the characters behind it are no code. -/
theorem Copied.stopsAt (copied : Copied since) (pos : 0 < us) {after : Text}
    (whole : after.head? ≠ some 'u'.toNat) (noCode : NoCode after) :
    StopsAt (since ++ '\\'.toNat :: (copies us 'u' ++ after)) since us after := by
  refine ⟨copied.isMarker pos whole, noCode, ?_⟩
  intro before us' after' marker _
  obtain ⟨front, rfl, -⟩ := (copied.unmarked _ _ _ _).1 marker
  rw [length_append]
  exact Nat.le_add_right _ _

end Escape

/-! ## What is decoded -/

/-- Where a text is decoded, no marker is in the way. -/
theorem Decodes.code {text decoded : Text} (decodes : Decodes text decoded) {before : Text} {us : Nat} {after : Text}
    (marker : IsMarker text before us after) : ¬ NoCode after := by
  induction decodes generalizing before with
  | @last since copied =>
    rw [← append_nil since, copied.unmarked] at marker
    obtain ⟨front, -, marker⟩ := marker
    exact absurd marker not_isMarker_nil
  | lone copied =>
    obtain ⟨front, -, marker⟩ := (copied.unmarked _ _ _ _).1 marker
    exact absurd marker not_isMarker_lone
  | @cut since us' copied pos =>
    rw [← append_nil (copies us' 'u'), ← append_nil ([] : Text),
      copied.isMarker_escape pos (by simp) (by simp)] at marker
    rcases marker with ⟨-, -, rfl⟩ | ⟨front, -, marker⟩
    · exact fun noCode => noCode.1 rfl
    · exact absurd marker not_isMarker_nil
  | @escape since us' digits n rest decoded copied pos number whole _ ih =>
    rcases (copied.isMarker_escape pos (clean_of_hexNumber? number) (head?_of_hexNumber? number rest)).1 marker with
      ⟨-, -, rfl⟩ | ⟨front, -, later⟩
    · intro noCode
      rw [NoCode, whole] at noCode
      exact noCode.2 n number
    · exact ih later

/-- What is decoded does not depend on the code that is lent to invalid escapes. -/
theorem Decodes.unescapeFrom_eq {text decoded : Text} (decodes : Decodes text decoded) (earlier : Option Int) :
    unescapeFrom [] earlier .plain text = { outcome := .ok decoded } := by
  induction decodes generalizing earlier with
  | @last since copied =>
    have whole := copied.unescapeFrom_append [] earlier []
    rw [append_nil, append_nil] at whole
    rw [whole, unescapeFrom, reverse_reverse]
  | @lone since copied =>
    rw [copied.unescapeFrom_append, append_nil, unescapeFrom, if_pos (beq_self_eq_true _), unescapeFrom,
      reverse_reverse]
  | @cut since us copied pos =>
    have marker := unescapeFrom_marker pos since.reverse earlier []
    rw [append_nil] at marker
    rw [copied.unescapeFrom_append, append_nil]
    refine marker.trans ?_
    rw [unescapeFrom, reverse_reverse]
    simp
  | @escape since us digits n rest decoded copied pos number whole _ ih =>
    rw [copied.unescapeFrom_append, append_nil, unescapeFrom_escape pos number whole, ih, Unescaped.after,
      reverse_reverse]
    simp [Except.map]

/-- How decoding ends at a marker with these characters behind it: with the complaint about them as its first one, or
with a negative code and no complaint. -/
structure Stopped (digits : Text) (u : Unescaped) : Prop where
  invalid : Text.hexNumber? digits = none → u.invalid.head? = some digits
  negative : Text.hexNumber? digits ≠ none → u = { outcome := .error .negativeCode }

theorem Stopped.after {digits : Text} {u : Unescaped} (stopped : Stopped digits u) (text : Text) :
    Stopped digits (u.after text []) where
  invalid := stopped.invalid
  negative number := by
    rw [stopped.negative number]
    rfl

theorem stopped_marker {us : Nat} (pos : 0 < us) {digits rest : Text} (nonempty : digits ≠ [])
    (head : digits.head? ≠ some 'u'.toNat) (whole : (digits ++ rest).take 4 = digits)
    (noNumber : ∀ n : Nat, hexNumber? digits ≠ some (n : Int)) (copied : Text) (earlier : Option Int) :
    Stopped digits (unescapeFrom copied earlier .plain ('\\'.toNat :: (copies us 'u' ++ (digits ++ rest)))) := by
  rw [unescapeFrom_escaped pos nonempty head whole _ _ rfl]
  cases read : hexNumber? digits with
  | none =>
    refine ⟨fun _ => ?_, absurd read⟩
    cases earlier with
    | none => rfl
    | some code =>
      simp only [Option.none_or, Option.elim_some]
      split
      · rfl
      · rfl
  | some n =>
    have negative : n < 0 := by
      refine Int.not_le.1 fun nonneg => noNumber n.toNat ?_
      rw [read, Int.toNat_of_nonneg nonneg]
    refine ⟨fun missing => (by cases read.symm.trans missing), fun _ => ?_⟩
    simp only [Option.some_or, Option.elim_some, if_pos negative, Option.isSome_some, if_true]

/-- **Decoding** comes to the end of a text, or it stops at a marker. The induction goes from escape to escape. -/
theorem decodes_or_stops (text : Text) :
    (∃ decoded, Decodes text decoded) ∨ ∃ before us after, StopsAt text before us after ∧
      ∀ earlier, Stopped (after.take 4) (unescapeFrom [] earlier .plain text) := by
  induction text using segments with
  | last since copied => exact .inl ⟨_, .last copied⟩
  | lone since copied => exact .inl ⟨_, .lone copied⟩
  | cut since us copied pos => exact .inl ⟨_, .cut copied pos⟩
  | escape since us digits rest copied pos nonempty whole head ih =>
    by_cases number : ∃ n : Nat, hexNumber? digits = some (n : Int)
    · obtain ⟨n, number⟩ := number
      rcases ih with ⟨decoded, decodes⟩ | ⟨front, us', after, stops, stopped⟩
      · exact .inl ⟨_, .escape copied pos number whole decodes⟩
      · refine .inr ⟨_, us', after, stops.behind copied pos number whole, fun earlier => ?_⟩
        rw [copied.unescapeFrom_append, unescapeFrom_escape pos number whole]
        exact (stopped _).after _
    · have starts : (digits ++ rest).head? ≠ some 'u'.toNat := by
        rwa [head?_append, Option.or_of_isSome (isSome_head?.2 nonempty)]
      have noCode : NoCode (digits ++ rest) := by
        refine ⟨fun empty => nonempty (append_eq_nil_iff.1 empty).1, fun n => ?_⟩
        rw [whole]
        exact fun read => number ⟨n, read⟩
      refine .inr ⟨since, us, digits ++ rest, copied.stopsAt pos starts noCode, fun earlier => ?_⟩
      rw [copied.unescapeFrom_append, whole]
      exact stopped_marker pos nonempty head whole (fun n read => number ⟨n, read⟩) _ _

/-! ## Complaints about lexemes -/

theorem remarks_operatorReading? {text : Text} {reading : Reading} (read : operatorReading? text = some reading) :
    reading.remarks = [] := by
  obtain ⟨op, -, rfl⟩ := Option.map_eq_some_iff.1 read
  rfl

theorem reason_hexExponent (text : Text) (n : Nat) :
    ∀ remark ∈ (Number.hexExponent text n).remarks, remark.reason = .invalidHexFloat := by
  unfold Number.hexExponent
  intro remark mem
  split at mem
  · cases mem
  split at mem
  · cases mem
  · rw [mem_singleton.1 mem]

theorem reason_number (text : Text) : ∀ remark ∈ (Number.read text).remarks, remark.reason = .invalidHexFloat := by
  have hex : ∀ remark ∈ (Number.hex text).remarks, remark.reason = .invalidHexFloat := by
    unfold Number.hex
    intro remark mem
    split at mem
    · cases mem
    split at mem
    · cases mem
    split at mem
    · cases mem
    · exact reason_hexExponent _ _ remark mem
  unfold Number.read
  intro remark mem
  split at mem
  · split at mem
    · cases mem
    split at mem
    · exact hex remark mem
    split at mem
    · cases mem
    split at mem
    · cases mem
    · cases mem
  · cases mem

theorem reason_scan (quote : CodePoint) (read : Nat) (state : Quotation.State) (text : Text) :
    ∀ remark ∈ (Quotation.scan quote read state text).1, remark.reason = .illegalEscape := by
  fun_induction Quotation.scan quote read state text <;> simp_all

theorem reason_quotation (quote : CodePoint) (rest : Text) : ∀ remark ∈ (Quotation.read quote rest).remarks,
      remark.reason = .illegalEscape ∨ remark.reason = .unterminatedLiteral := by
  have scanned := reason_scan quote 0 .plain rest
  unfold Quotation.read
  intro remark mem
  split at mem
  · rename_i remarks n scan_eq
    rw [scan_eq] at scanned
    exact .inl (scanned remark mem)
  · rename_i remarks scan_eq
    rw [scan_eq] at scanned
    rcases mem_append.1 mem with mem | mem
    · exact .inl (scanned remark mem)
    · rw [mem_singleton.1 mem]
      exact .inr rfl

/-- No remark about a lexeme is about an escape of the source text. -/
theorem reason_lexeme? {c : CodePoint} {rest : Text} {reading : Reading} (read : lexeme? c rest = some reading) :
    ∀ remark ∈ reading.remarks, remark.reason ≠ .invalidUnicodeEscape := by
  intro remark mem
  cases lexeme?_readBy read with
  | operator found =>
    rw [remarks_operatorReading? found] at mem
    cases mem
  | quotation => rcases reason_quotation c rest remark mem with reason | reason <;> rw [reason] <;> decide
  | digit =>
    rw [reason_number _ remark mem]
    decide
  | atSign | point | separator | word => cases mem

/-- The first complaint ends a strict reading. -/
theorem complaint_of_afterComplaints {complaints : List Complaint} {later : Lexed} {c : Complaint}
    (failed : (Lexed.afterComplaints .strict complaints later).failure = some (.complaint c)) :
    c ∈ complaints ∨ later.failure = some (.complaint c) := by
  cases complaints with
  | nil => exact .inr failed
  | cons first rest =>
    cases failed
    exact .inl mem_cons_self

/-- No complaint about the decoded text is about an escape. -/
theorem tokensFrom_reason {text : Text} {p : Place} {c : Complaint}
    (failed : (tokensFrom .strict text p).failure = some (.complaint c)) : c.reason ≠ .invalidUnicodeEscape := by
  fun_induction tokensFrom .strict text p with
  | case1 p ended => cases failed
  | case2 p d rest starts blank ih => exact ih failed
  | case3 p d rest starts visible n commented ih => exact ih failed
  | case4 p d rest starts visible commented =>
    cases failed
    rintro ⟨⟩
  | case5 p d rest starts visible uncommented unread ih =>
    rcases complaint_of_afterComplaints failed with mem | failed
    · rw [mem_singleton.1 mem]
      rintro ⟨⟩
    · exact ih failed
  | case6 p d rest starts visible uncommented reading read complaints =>
    rename_i ih
    rcases complaint_of_afterComplaints failed with mem | failed
    · obtain ⟨remark, made, rfl⟩ := mem_map.1 mem
      exact reason_lexeme? read remark made
    · split at failed
      · cases failed
      · exact ih _ failed

end JavaSource.Lexer

namespace JavaSource

open Lexer

/-- What is decoded of a text is read in its place. -/
theorem Lexer.Decodes.tokenize_eq {text decoded : Text} (decodes : Decodes text decoded) :
    tokenize .strict (.text text) = tokensFrom .strict decoded (Place.start decoded) := by
  have decoded_eq : unescape text = { outcome := .ok decoded } := decodes.unescapeFrom_eq none
  rw [tokenize, tokenizeText, decoded_eq]
  rfl

/-- **Escapes without four digits.** A strict reading of a text complains about an invalid escape exactly if the first
marker that is followed by characters, but by no number from zero on, is followed by no number at all; the complaint
then shows the characters behind that marker. If they are a negative number instead, the reading fails without a
complaint. If there is no such marker, all markers are taken for escapes, and the reading is that of what is decoded:
more than four hexadecimal digits make a code, and what was copied since the last escape is there twice if the text
ends with a marker. -/
theorem tokenize_malformed_escape (text : Text) :
    ((∃ c, (tokenize .strict (.text text)).failure = some (.complaint c) ∧ c.reason = .invalidUnicodeEscape) ↔
      ∃ before us after, StopsAt text before us after ∧ Text.hexNumber? (after.take 4) = none) ∧
    (∀ before us after, StopsAt text before us after → (tokenize .strict (.text text)).failure =
      some (if Text.hexNumber? (after.take 4) = none then .complaint (escapeComplaint text (after.take 4))
        else .fault .negativeCode)) ∧
    ((∀ before us after, IsMarker text before us after → ¬ NoCode after) ↔ ∃ decoded, Decodes text decoded) ∧
    ∀ decoded, Decodes text decoded →
      tokenize .strict (.text text) = tokensFrom .strict decoded (Place.start decoded) := by
  have stopping {digits : Text} (stopped : Stopped digits (unescape text)) :
      (tokenize .strict (.text text)).failure =
        some (if hexNumber? digits = none then .complaint (escapeComplaint text digits)
          else .fault .negativeCode) := by
    rw [tokenize, tokenizeText]
    split
    · rename_i none_read
      obtain ⟨more, invalid⟩ := head?_eq_some_iff.1 (stopped.invalid none_read)
      rw [invalid]
      rfl
    · rename_i number
      rw [stopped.negative number]
      rfl
  rcases decodes_or_stops text with ⟨decoded, decodes⟩ | ⟨before, us, after, stops, stopped⟩
  · have never {before : Text} {us : Nat} {after : Text} : ¬ StopsAt text before us after :=
      fun stops => decodes.code stops.marker stops.noCode
    refine ⟨⟨?_, ?_⟩, fun _ _ _ stops => absurd stops never, ⟨fun _ => ⟨decoded, decodes⟩, ?_⟩,
      fun _ => Decodes.tokenize_eq⟩
    · rintro ⟨c, failed, reason⟩
      rw [decodes.tokenize_eq] at failed
      exact absurd reason (tokensFrom_reason failed)
    · rintro ⟨_, _, _, stops, -⟩
      exact absurd stops never
    · rintro - _ _ _ marker
      exact decodes.code marker
  · have failure := stopping (stopped none)
    have ends {decoded : Text} : ¬ Decodes text decoded := fun decodes => decodes.code stops.marker stops.noCode
    refine ⟨⟨?_, ?_⟩, ?_, ⟨?_, ?_⟩, fun _ => Decodes.tokenize_eq⟩
    · rintro ⟨c, failed, reason⟩
      refine ⟨before, us, after, stops, ?_⟩
      by_contra number
      rw [failure, if_neg number] at failed
      cases failed
    · rintro ⟨_, _, _, stops', none_read⟩
      obtain ⟨rfl, rfl, rfl⟩ := stops.unique stops'
      rw [failure, if_pos none_read]
      exact ⟨_, rfl, rfl⟩
    · intro _ _ _ stops'
      obtain ⟨rfl, rfl, rfl⟩ := stops.unique stops'
      exact failure
    · intro codes
      exact absurd stops.noCode (codes _ _ _ stops.marker)
    · rintro ⟨decoded, decodes⟩
      exact absurd decodes ends

/-- Two texts with a marker that no four digits follow, and that are read without a complaint: in one the text ends
with the marker, and the word before it is read twice, in the other a sign is taken for a digit. -/
theorem tokenize_malformed_accepted : (¬ ∀ text before us after, IsMarker text before us after →
      (∀ digits rest c, after = digits ++ rest → ¬ IsCode digits c) →
      ∃ c, (tokenize .strict (.text text)).failure = some (.complaint c) ∧ c.reason = .invalidUnicodeEscape) ∧
    (tokenize .strict (.text "\nfoo//\\u")).tokens.map Token.value = [Text.ofString "foo", Text.ofString "foo"] ∧
    (tokenize .strict (.text "\\u+041")).tokens.map Token.value = [Text.ofString "A"] := by
  obtain ⟨ok, twice, sign⟩ : (tokenize .strict (.text "\nfoo//\\u")).failure = none ∧
      (tokenize .strict (.text "\nfoo//\\u")).tokens.map Token.value = [ofString "foo", ofString "foo"] ∧
      (tokenize .strict (.text "\\u+041")).tokens.map Token.value = [ofString "A"] := by decide +kernel
  refine ⟨fun complains => ?_, twice, sign⟩
  have marker : IsMarker (ofString "\nfoo//\\u") (ofString "\nfoo//") 1 [] :=
    ⟨by decide, by decide, by decide, by decide⟩
  have noDigits (digits rest : Text) (c : CodePoint) (empty : [] = digits ++ rest) : ¬ IsCode digits c := by
    intro code
    have length := code.length
    rw [(append_eq_nil_iff.1 empty.symm).1] at length
    cases length
  obtain ⟨c, failed, -⟩ := complains _ _ _ _ marker noDigits
  rw [ok] at failed
  cases failed

end JavaSource
