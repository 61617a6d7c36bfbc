import Mathlib.Tactic.Common
import JavaSource.Lexer.Basic

/-!
# Bytes and text

Bytes and the text that they stand for are read alike but for one thing: a complaint about an invalid escape shows a
line of the text, and where the source came as bytes there is no text yet. So the same is read of both exactly where no
escape is invalid, in either mode.
-/

namespace JavaSource

namespace Lexer

variable {bytes : List UInt8}

theorem tokenizeBytes_valid (valid : (unescape (Text.ofBytes bytes)).invalid = []) (mode : Mode) :
    tokenizeBytes mode bytes = tokenizeText mode (Text.ofBytes bytes) := by
  rw [tokenizeBytes, tokenizeText, valid]
  cases mode <;> rfl

theorem tokenizeBytes_invalid (invalid : (unescape (Text.ofBytes bytes)).invalid ≠ [])
    (mode : Mode) : tokenizeBytes mode bytes = Lexed.faulty .invalidEscapeInBytes := by
  rw [tokenizeBytes, if_neg (mt List.isEmpty_iff.mp invalid)]

/-- Either mode has something to say about a text with an invalid escape, and about its first one before all. -/
theorem complaints_tokenizeText {text digits : Text} {more : List Text}
    (invalid : (unescape text).invalid = digits :: more) (mode : Mode) :
    (tokenizeText mode text).complaints.head? = some (escapeComplaint text digits) := by
  rw [tokenizeText, invalid]
  cases mode <;> rfl

theorem tokenizeBytes_eq_iff (mode : Mode) (bytes : List UInt8) :
    tokenizeBytes mode bytes = tokenizeText mode (Text.ofBytes bytes) ↔
      (unescape (Text.ofBytes bytes)).invalid = [] := by
  refine ⟨fun same => ?_, fun valid => tokenizeBytes_valid valid mode⟩
  cases invalid : (unescape (Text.ofBytes bytes)).invalid with
  | nil => rfl
  | cons digits more =>
    have complaint := complaints_tokenizeText invalid mode
    rw [← same, tokenizeBytes_invalid (invalid ▸ List.cons_ne_nil digits more)] at complaint
    cases complaint

end Lexer

open Lexer

/-- **Bytes and text.** Where no escape in the text is invalid, the bytes are read as the text is: the same tokens,
the same complaints, the same failure. Where one is, they never are: the text is complained about, the first invalid
escape before all else, and the bytes are a fault at once, without a token or a complaint. -/
theorem tokenize_bytes (mode : Mode) (bytes : List UInt8) :
    (tokenize mode (.bytes bytes) = tokenize mode (.text (Text.ofBytes bytes)) ↔
      (unescape (Text.ofBytes bytes)).invalid = []) ∧
    ∀ digits more, (unescape (Text.ofBytes bytes)).invalid = digits :: more →
      tokenize mode (.bytes bytes) = Lexed.faulty .invalidEscapeInBytes ∧
      (tokenize mode (.text (Text.ofBytes bytes))).complaints.head? =
        some (escapeComplaint (Text.ofBytes bytes) digits) := by
  refine ⟨tokenizeBytes_eq_iff mode bytes, fun digits more invalid => ⟨?_, complaints_tokenizeText invalid mode⟩⟩
  exact tokenizeBytes_invalid (invalid ▸ List.cons_ne_nil digits more) mode

/-- The bytes of an escape with four letters that are no digits. -/
theorem tokenize_bytes_differ : tokenize .strict (.bytes [92, 117, 90, 90, 90, 90]) ≠
    tokenize .strict (.text (Text.ofBytes [92, 117, 90, 90, 90, 90])) := by
  intro same
  have valid := (tokenizeBytes_eq_iff .strict _).mp same
  revert valid
  decide +kernel

end JavaSource
