import JavaSource.Proofs.Lexer.Scan

/-!
# The two modes agree up to the first complaint

A strict and a lenient reading take the same steps until something is to be complained about. There the strict
reading ends, and the lenient one keeps the complaint and goes on. `Lexed.Heads` says what that makes of the two
readings as a whole, and `tokenize_modes` that the readings of every source are related in this way.
-/

namespace JavaSource

/-- A strict reading and the lenient reading of the same text: they are one and the same and without complaint, or
the strict reading is the lenient one up to its first complaint. -/
inductive Lexed.Heads : Lexed → Lexed → Prop where
  /-- Nothing is complained about; the reading may still end with a fault. -/
  | same {read : Lexed} : read.complaints = [] → (∀ c, read.failure ≠ some (.complaint c)) → Heads read read
  /-- The strict reading ends with the first complaint. -/
  | stopped {tokens : List Token} {c : Lexer.Complaint} {lenient : Lexed} : tokens <+: lenient.tokens →
    lenient.complaints.head? = some c →
    Heads { tokens, complaints := [c], failure := some (.complaint c) } lenient

namespace Lexed.Heads

variable {strict lenient : Lexed}

theorem nil : Heads {} {} := by
  refine .same rfl ?_
  rintro c ⟨⟩

theorem faulty (f : Lexer.Fault) : Heads (Lexed.faulty f) (Lexed.faulty f) := by
  refine .same rfl ?_
  rintro c ⟨⟩

theorem addToken (heads : Heads strict lenient) (t : Token) : Heads (strict.addToken t) (lenient.addToken t) := by
  cases heads with
  | same none noComplaint => exact .same none noComplaint
  | stopped before first => exact .stopped (List.cons_prefix_cons.2 ⟨rfl, before⟩) first

/-- The first of some complaints ends the strict reading; without any, both go on as before. -/
theorem afterComplaints (heads : Heads strict lenient) (complaints : List Lexer.Complaint) :
    Heads (Lexed.afterComplaints .strict complaints strict) (Lexed.afterComplaints .lenient complaints lenient) := by
  cases complaints with
  | nil => exact heads
  | cons c rest => exact .stopped List.nil_prefix rfl

end Lexed.Heads

namespace Lexer

theorem tokensFrom_heads (text : Text) (p : Place) :
    Lexed.Heads (tokensFrom .strict text p) (tokensFrom .lenient text p) := by
  fun_induction tokensFrom .strict text p with
  | case1 p ended =>
    rw [tokensFrom_nil ended]
    exact .nil
  | case2 p c rest starts blank ih =>
    rw [tokensFrom_cons starts, if_pos blank]
    exact ih
  | case3 p c rest starts visible n commented ih =>
    rw [tokensFrom_cons starts, if_neg visible, commented]
    exact ih
  | case4 p c rest starts visible commented =>
    rw [tokensFrom_cons starts, if_neg visible, commented]
    exact .afterComplaints .nil _
  | case5 p c rest starts visible uncommented unread ih =>
    rw [tokensFrom_cons starts, if_neg visible, uncommented, unread]
    exact ih.afterComplaints _
  | case6 p c rest starts visible uncommented reading read complaints =>
    rename_i ih
    rw [tokensFrom_cons starts, if_neg visible, uncommented, read]
    refine .afterComplaints ?_ _
    cases reading.outcome with
    | error f => exact .faulty f
    | ok lexeme => exact (ih lexeme).addToken _

theorem tokenizeUnescaped_heads (unescaped : Unescaped) :
    Lexed.Heads (tokenizeUnescaped .strict unescaped) (tokenizeUnescaped .lenient unescaped) := by
  unfold tokenizeUnescaped
  split
  · exact .faulty _
  · exact tokensFrom_heads _ _

theorem tokenize_heads (source : Source) : Lexed.Heads (tokenize .strict source) (tokenize .lenient source) := by
  cases source with
  | text text => exact (tokenizeUnescaped_heads _).afterComplaints _
  | bytes bytes =>
    rw [tokenize, tokenize, tokenizeBytes, tokenizeBytes]
    split
    · exact tokenizeUnescaped_heads _
    · exact .faulty _

end Lexer

/-- **Modes.** The tokens of a strict reading are the first of those of the lenient reading, classes, values,
positions and documentation included. A strict reading without failure is the lenient reading, and there is no
complaint. One that a complaint ends has made it as its only one, and the lenient reading makes the very same as its
first, message included. One that a fault ends is the lenient reading up to its end: the same tokens and the same
fault. -/
theorem tokenize_modes (source : Source) : (tokenize .strict source).tokens <+: (tokenize .lenient source).tokens ∧
    ((tokenize .strict source).failure = none →
      tokenize .lenient source = tokenize .strict source ∧ (tokenize .lenient source).complaints = []) ∧
    (∀ c, (tokenize .strict source).failure = some (.complaint c) →
      (tokenize .strict source).complaints = [c] ∧ (tokenize .lenient source).complaints.head? = some c) ∧
    ∀ f, (tokenize .strict source).failure = some (.fault f) →
      (tokenize .lenient source).failure = some (.fault f) ∧
        (tokenize .lenient source).tokens = (tokenize .strict source).tokens ∧
        (tokenize .lenient source).complaints = [] := by
  have heads := Lexer.tokenize_heads source
  generalize tokenize .strict source = strict at heads
  generalize tokenize .lenient source = lenient at heads
  cases heads with
  | same none noComplaint =>
    refine ⟨List.prefix_rfl, fun _ => ⟨rfl, none⟩, fun c failed => absurd failed (noComplaint c), ?_⟩
    exact fun f failed => ⟨failed, rfl, none⟩
  | stopped before first =>
    refine ⟨before, ?_, ?_, ?_⟩
    · rintro ⟨⟩
    · rintro c ⟨⟩
      exact ⟨rfl, first⟩
    · rintro f ⟨⟩

end JavaSource
