import JavaSource.Lexer.Basic

/-!
# Readings without complaint

In strict mode the first complaint ends the reading of a text. So a reading that comes to the end of the text
without failure is a chain of steps of three kinds: over blanks, over a comment, and over a lexeme about which
its reader has nothing to say. `Scans` is that chain as a relation, and `scans_iff` says that it is exactly
the strict reading.
-/

namespace JavaSource

open List

theorem Text.drop_takeWhile (P : CodePoint → Bool) (text : Text) :
    text.drop (text.takeWhile P).length = text.dropWhile P := by
  have split := takeWhile_append_dropWhile (p := P) (l := text)
  exact (congrArg (List.drop _) split.symm).trans drop_left

/-- A text that starts with at least as much as another is split behind it. -/
theorem Text.exists_split_of_le {a back front rest : Text} (same : a ++ back = front ++ rest)
    (le : front.length ≤ a.length) : ∃ behind, a = front ++ behind ∧ behind ++ back = rest := by
  obtain ⟨behind, rfl⟩ := prefix_of_prefix_length_le ⟨rest, same.symm⟩ (prefix_append a back) le
  exact ⟨behind, rfl, append_cancel_left (by rw [← append_assoc, same])⟩

/-- Complaints end a strict reading, so one that ends well has none. -/
theorem Lexed.afterComplaints_strict {complaints : List Lexer.Complaint} {later : Lexed}
    (ok : (afterComplaints .strict complaints later).failure = none) :
    complaints = [] ∧ afterComplaints .strict complaints later = later := by
  cases complaints with
  | nil => exact ⟨rfl, by cases later; rfl⟩
  | cons c rest => cases ok

namespace Lexer

/-- `Scans p tokens`: the text from `p` on is read to its end, without complaint, as these tokens. -/
inductive Scans : Place → List Token → Prop where
  | done {p : Place} : p.rest = [] → Scans p []
  | blanks {p : Place} {c : CodePoint} {rest : Text} {tokens : List Token} :
    p.rest = c :: rest → Text.isBlank c = true →
    Scans (p.skip ((rest.takeWhile Text.isBlank).length + 1)) tokens → Scans p tokens
  | comment {p : Place} {c : CodePoint} {rest : Text} {n : Nat} {tokens : List Token} :
    p.rest = c :: rest → Text.isBlank c = false → comment? (c :: rest) = some (.closed n) →
    Scans (p.skipComment (n + 1)) tokens → Scans p tokens
  | lexeme {p : Place} {c : CodePoint} {rest : Text} {lexeme : Lexeme} {tokens : List Token} :
    p.rest = c :: rest → Text.isBlank c = false → comment? (c :: rest) = none →
    lexeme? c rest = some { outcome := .ok lexeme } →
    Scans (p.afterToken lexeme) tokens → Scans p (p.token lexeme :: tokens)

/-- The reader that takes a text, with what it needs of the first characters. -/
inductive ReadBy (c : CodePoint) (rest : Text) : Reading → Prop where
  | operator {r : Reading} : operatorReading? (c :: rest) = some r → ReadBy c rest r
  | atSign : c = '@'.toNat → ReadBy c rest (.plain .atSign 1)
  | point : c = '.'.toNat → rest.head?.any Text.isDigit = true →
    ReadBy c rest (Number.plain (Number.decimal (c :: rest)))
  | separator : c ∈ Vocabulary.separators → ReadBy c rest (.plain .separator 1)
  | quotation : (c == '\''.toNat || c == '"'.toNat) = true → ReadBy c rest (Quotation.read c rest)
  | digit : Number.isDecimal c = true → ReadBy c rest (Number.read (c :: rest))
  | word : Text.isIdentifierStart c = true → ReadBy c rest (wordReading (c :: rest))

variable {c : CodePoint} {rest : Text}

theorem lexeme?_readBy {r : Reading} (read : lexeme? c rest = some r) :
    ReadBy c rest r := by
  simp only [lexeme?] at read
  split at read
  · exact .operator read
  split at read
  · rename_i atSign
    cases read
    exact .atSign (eq_of_beq atSign)
  split at read
  · rename_i point
    cases read
    obtain ⟨isPoint, digit⟩ := Bool.and_eq_true_iff.1 point
    exact .point (eq_of_beq isPoint) digit
  split at read
  · rename_i separator
    cases read
    exact .separator (contains_iff_mem.1 separator)
  split at read
  · rename_i quote
    cases read
    exact .quotation quote
  split at read
  · rename_i digit
    cases read
    exact .digit digit
  split at read
  · rename_i start
    cases read
    exact .word start
  · exact .operator read

/-! ## The equations of a strict reading -/

variable {p : Place} {text : Text}

variable {mode : Mode}

theorem tokensFrom_nil (ended : p.rest = []) : tokensFrom mode text p = {} := by
  rw [tokensFrom.eq_def]
  split
  · rfl
  · rename_i c rest starts
    rw [ended] at starts
    cases starts

theorem tokensFrom_cons (starts : p.rest = c :: rest) :
    tokensFrom mode text p =
      if Text.isBlank c then
        tokensFrom mode text (p.skip ((rest.takeWhile Text.isBlank).length + 1))
      else
        match comment? (c :: rest) with
        | some (.closed n) => tokensFrom mode text (p.skipComment (n + 1))
        | some .unterminated =>
          Lexed.afterComplaints mode [p.complaint text ⟨.unterminatedComment, none⟩] {}
        | none =>
          match lexeme? c rest with
          | none =>
            Lexed.afterComplaints mode [p.complaint text ⟨.unknownCharacter, some c⟩]
              (tokensFrom mode text (p.advance 1))
          | some reading =>
            Lexed.afterComplaints mode (reading.remarks.map (p.complaint text)) (match reading.outcome with
                | .error f => Lexed.faulty f
                | .ok lexeme => (tokensFrom mode text (p.afterToken lexeme)).addToken (p.token lexeme)) := by
  rw [tokensFrom.eq_def]
  split
  · rename_i ended
    rw [ended] at starts
    cases starts
  · rename_i c' rest' starts'
    have same := starts.symm.trans starts'
    injection same with head tail
    subst head tail
    rfl

/-- A strict reading without failure is a chain of steps. The induction is on the text still to be read, as
the reading itself goes. -/
theorem scans_of_ok (p : Place) (ok : (tokensFrom .strict text p).failure = none) :
    Scans p (tokensFrom .strict text p).tokens := by
  fun_induction tokensFrom .strict text p with
  | case1 p ended => exact .done ended
  | case2 p c rest starts blank ih => exact .blanks starts blank (ih ok)
  | case3 p c rest starts visible n commented ih =>
    exact .comment starts (Bool.eq_false_iff.2 visible) commented (ih ok)
  | case4 p c rest starts visible commented => cases ok
  | case5 p c rest starts visible uncommented unread ih => cases ok
  | case6 p c rest starts visible uncommented reading read complaints =>
    rename_i ih
    obtain ⟨none_made, later_eq⟩ := Lexed.afterComplaints_strict ok
    rw [later_eq] at ok ⊢
    have no_remarks : reading.remarks = [] := map_eq_nil_iff.1 none_made
    cases outcome : reading.outcome with
    | error f =>
      rw [outcome] at ok
      cases ok
    | ok lexeme =>
      rw [outcome] at ok
      have plain : reading = { outcome := .ok lexeme } := by
        cases reading
        simp only [Reading.mk.injEq]
        exact ⟨no_remarks, outcome⟩
      subst plain
      exact .lexeme starts (Bool.eq_false_iff.2 visible) uncommented read (ih lexeme ok)

variable {tokens : List Token}

theorem Scans.tokensFrom_eq (scans : Scans p tokens) :
    tokensFrom .strict text p = { tokens } := by
  induction scans with
  | done ended => exact tokensFrom_nil ended
  | blanks starts blank _ ih => rw [tokensFrom_cons starts, if_pos blank, ih]
  | comment starts blank commented _ ih =>
    rw [tokensFrom_cons starts, if_neg (by simp [blank])]
    simp only [commented, ih]
  | lexeme starts blank commented read _ ih =>
    rw [tokensFrom_cons starts, if_neg (by simp [blank])]
    simp only [commented, read, ih]
    rfl

/-- **The strict reading** comes to the end of the text, with these tokens, exactly if there is a chain of
steps for them. -/
theorem scans_iff : Scans p tokens ↔ tokensFrom .strict text p = { tokens } := by
  constructor
  · exact Scans.tokensFrom_eq
  · intro read
    have ok : (tokensFrom .strict text p).failure = none := by rw [read]
    have scans := scans_of_ok p ok
    rwa [read] at scans

end Lexer

end JavaSource
