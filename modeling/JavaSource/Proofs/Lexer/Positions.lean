import JavaSource.Proofs.Lexer.Coverage
import JavaSource.Proofs.Lexer.Numbers

/-!
# Lines and columns

A token carries the line and the column of the index at which its value starts. Lines are counted while blanks
and comments are passed over, and nowhere else. No token but a character or string literal holds a newline, so
the newlines that are missed are those inside of such literals: `tokenize_positions`.

`Placed` ties a token to the index at which its value starts, `LaidOut` says that a text is made of placed
tokens with nothing but gaps and unknown characters between them, and `positionAt` is the position that an
index has.
-/

namespace JavaSource

open List Text

theorem Text.exists_front_of_afterLastNewline? {text tail : Text} (found : afterLastNewline? text = some tail) :
    ∃ front, text = front ++ newline :: tail ∧ newline ∉ tail := by
  unfold afterLastNewline? at found
  split at found
  · rename_i contained
    cases found
    have mem : newline ∈ text.reverse := mem_reverse.2 (contains_iff_mem.1 contained)
    have whole := takeWhile_append_dropWhile (p := (· != newline)) (l := text.reverse)
    have clean : newline ∉ text.reverse.takeWhile (· != newline) := fun inside => by
      have differs := mem_takeWhile_imp inside
      simp at differs
    cases rest_eq : text.reverse.dropWhile (· != newline) with
    | nil =>
      rw [rest_eq, append_nil] at whole
      exact absurd (whole.symm ▸ mem) clean
    | cons c rest =>
      have head : (c != newline) = false := by
        have stops := head?_dropWhile_not (· != newline) text.reverse
        rwa [rest_eq] at stops
      cases bne_eq_false_iff_eq.1 head
      refine ⟨rest.reverse, ?_, fun inside => clean (mem_reverse.1 inside)⟩
      rw [rest_eq] at whole
      have back := congrArg List.reverse whole
      rw [reverse_reverse, reverse_append, reverse_cons, append_assoc,
        singleton_append] at back
      exact back.symm
  · cases found

namespace Lexer

/-! ## Positions of indexes -/

/-- A token and the index in the text at which its value starts. -/
structure Placed where
  start : Nat
  token : Token

def Placed.stop (p : Placed) : Nat := p.start + p.token.value.length

/-- Whether the index lies inside of the token, and the token is a character or string literal. -/
def Placed.hides (p : Placed) (i : Nat) : Bool := p.token.cls == .string && p.start ≤ i && i < p.stop

/-- The newlines before an index that lie outside of the earlier literals, by their indexes. -/
def newlinesBefore (text : Text) (earlier : List Placed) (s : Nat) : List Nat :=
  (List.range s).filter fun i => text[i]? == some Text.newline && !earlier.any (·.hides i)

/-- The line and the column of an index, where newlines inside of earlier literals do not count. -/
def positionAt (text : Text) (earlier : List Placed) (s : Nat) : Position where
  line := 1 + (newlinesBefore text earlier s).length
  column := ((newlinesBefore text earlier s).getLast?.map (s - ·)).getD (s + 1)

/-! ## Where tokens are -/

/-- From the first index up to the second there are only gaps, and characters with which nothing starts. -/
inductive Passed (text : Text) : Nat → Nat → Prop where
  | done (i : Nat) : Passed text i i
  | gap {i j : Nat} {gap : Text} : IsGap gap → gap <+: text.drop i → Passed text (i + gap.length) j →
    Passed text i j
  | unknown {i j : Nat} {c : CodePoint} {rest : Text} : text.drop i = c :: rest →
    Text.isBlank c = false → comment? (c :: rest) = none → lexeme? c rest = none →
    Passed text (i + 1) j → Passed text i j

/-- From an index on, the tokens stand in the text at their places, one behind the other. -/
def LaidOut (text : Text) : Nat → List Placed → Prop
  | _, [] => True
  | i, p :: rest => Passed text i p.start ∧ p.token.value ≠ [] ∧ p.token.value <+: text.drop p.start ∧
      LaidOut text p.stop rest

variable {text : Text} {s : Nat} {earlier : List Placed}

variable {i j : Nat}

theorem Passed.trans {k : Nat} (first : Passed text i j) (second : Passed text j k) : Passed text i k := by
  induction first with
  | done i => exact second
  | gap isGap here _ ih => exact .gap isGap here (ih second)
  | unknown here visible uncommented unread _ ih =>
    exact .unknown here visible uncommented unread (ih second)

theorem LaidOut.after {placed : List Placed} (passed : Passed text i j)
    (laid : LaidOut text j placed) : LaidOut text i placed := by
  cases placed with
  | nil => trivial
  | cons p rest =>
    obtain ⟨gap, nonempty, here, later⟩ := laid
    exact ⟨passed.trans gap, nonempty, here, later⟩

theorem LaidOut.here {text : Text} {i : Nat} {placed : List Placed} (laid : LaidOut text i placed) :
    ∀ p ∈ placed, p.token.value <+: text.drop p.start := by
  induction placed generalizing i with
  | nil => exact fun p mem => nomatch mem
  | cons q rest ih =>
    obtain ⟨-, -, here, later⟩ := laid
    exact forall_mem_cons.2 ⟨here, ih later⟩

/-! ## Newlines -/

def newlineIndexes : Nat → Text → List Nat
  | _, [] => []
  | s, c :: rest => if c = Text.newline then s :: newlineIndexes (s + 1) rest else newlineIndexes (s + 1) rest

theorem newlineIndexes_append (s : Nat) (front back : Text) : newlineIndexes s (front ++ back) =
      newlineIndexes s front ++ newlineIndexes (s + front.length) back := by
  induction front generalizing s with
  | nil => rfl
  | cons c front ih =>
    have shifted : s + (c :: front).length = s + 1 + front.length := by
      rw [length_cons]
      omega
    rw [shifted, cons_append, newlineIndexes, newlineIndexes, ih]
    split <;> rfl

theorem newlineIndexes_eq_nil (none : newline ∉ text) (s : Nat) : newlineIndexes s text = [] := by
  induction text generalizing s with
  | nil => rfl
  | cons c rest ih =>
    rw [mem_cons, not_or] at none
    rw [newlineIndexes, if_neg (Ne.symm none.1), ih none.2]

theorem length_newlineIndexes (s : Nat) (text : Text) : (newlineIndexes s text).length = countNewlines text := by
  induction text generalizing s with
  | nil => rfl
  | cons c rest ih =>
    rw [newlineIndexes, countNewlines, count_cons, ← countNewlines, ← ih (s + 1)]
    by_cases newline : c = newline
    · rw [if_pos newline, if_pos (beq_iff_eq.2 newline), length_cons]
    · rw [if_neg newline, if_neg (fun same => newline (beq_iff_eq.1 same))]
      rfl

variable {gone : Text}

theorem getElem?_of_prefix_drop (here : gone <+: text.drop s)
    (lt : i < gone.length) : text[s + i]? = gone[i]? := by
  obtain ⟨after, split⟩ := here
  rw [← getElem?_drop, ← split, getElem?_append_left lt]

/-- The newlines of a piece of the text that lies behind the earlier tokens all count. -/
theorem newlinesBefore_add (here : gone <+: text.drop s) (ended : ∀ q ∈ earlier, q.stop ≤ s) :
    newlinesBefore text earlier (s + gone.length) =
      newlinesBefore text earlier s ++ newlineIndexes s gone := by
  induction gone generalizing s with
  | nil => rw [length_nil, Nat.add_zero, newlineIndexes, append_nil]
  | cons c gone ih =>
    have first : text[s]? = some c := getElem?_of_prefix_drop here (Nat.succ_pos _)
    have later : gone <+: text.drop (s + 1) := by
      obtain ⟨after, split⟩ := here
      refine ⟨after, ?_⟩
      rw [← drop_drop, ← split]
      rfl
    have seen : earlier.any (·.hides s) = false := by
      rw [any_eq_false]
      intro q mem
      have stop := ended q mem
      simp only [Placed.hides, Bool.and_eq_true, decide_eq_true_eq]
      omega
    have one : newlinesBefore text earlier (s + 1) =
        newlinesBefore text earlier s ++ if c = newline then [s] else [] := by
      rw [newlinesBefore, newlinesBefore, range_succ, filter_append]
      simp [filter_cons, first, seen]
    rw [length_cons, Nat.add_comm gone.length, ← Nat.add_assoc,
      ih later fun q mem => Nat.le_succ_of_le (ended q mem), one, newlineIndexes]
    split <;> simp

/-- One more token hides all newlines up to an index, if all of them lie inside of it. -/
theorem newlinesBefore_concat {q : Placed} (le : q.start ≤ s)
    (hidden : ∀ i, q.start ≤ i → i < s → text[i]? = some newline → q.hides i = true) :
    newlinesBefore text (earlier ++ [q]) s = newlinesBefore text earlier q.start := by
  obtain ⟨n, rfl⟩ := Nat.exists_eq_add_of_le le
  rw [newlinesBefore, newlinesBefore, range_add, filter_append]
  have inside : ((List.range n).map (q.start + ·)).filter (fun i =>
      text[i]? == some newline && !(earlier ++ [q]).any (·.hides i)) = [] := by
    rw [filter_eq_nil_iff]
    intro i mem
    obtain ⟨k, lt, rfl⟩ := mem_map.1 mem
    rw [mem_range] at lt
    rw [Bool.and_eq_true, beq_iff_eq]
    rintro ⟨newline, outside⟩
    have hides := hidden (q.start + k) (Nat.le_add_right _ _) (by omega) newline
    simp [hides] at outside
  rw [inside, append_nil]
  refine filter_congr fun i mem => ?_
  rw [mem_range] at mem
  have before : q.hides i = false := by
    simp only [Placed.hides, Bool.and_eq_false_iff, decide_eq_false_iff_not]
    omega
  rw [any_append, any_cons, before, any_nil, Bool.or_false, Bool.or_false]

/-! ## What the reader keeps track of -/

theorem Place.lineStart_skip (p : Place) (n : Nat) :
    (p.skip n).lineStart = ((afterLastNewline? (p.rest.take n)).map fun tail =>
      p.offset + (p.rest.take n).length - tail.length).getD p.lineStart := by
  rw [Place.skip]
  cases afterLastNewline? (p.rest.take n) <;> rfl

/-- The reader knows the line that it is on and where the line starts, counted behind the earlier tokens. -/
structure Tracks (text : Text) (earlier : List Placed) (p : Place) : Prop where
  rest : p.rest = text.drop p.offset
  ended : ∀ q ∈ earlier, q.stop ≤ p.offset
  line : p.line = 1 + (newlinesBefore text earlier p.offset).length
  lineStart : p.lineStart = ((newlinesBefore text earlier p.offset).getLast?.map (· + 1)).getD 0

variable {c : CodePoint} {rest : Text} {lexeme : Lexeme}

namespace Tracks

variable {text : Text} {earlier : List Placed} {p : Place}

theorem start (text : Text) : Tracks text [] (Place.start text) where
  rest := rfl
  ended := fun _ mem => nomatch mem
  line := rfl
  lineStart := rfl

/-- So the position that the reader gives to what comes next is the right one. -/
theorem position (tracks : Tracks text earlier p) : p.position = positionAt text earlier p.offset := by
  rw [Place.position, positionAt, tracks.line, tracks.lineStart]
  congr 1
  cases last : (newlinesBefore text earlier p.offset).getLast? with
  | none => rfl
  | some i =>
    have mem : i ∈ List.range p.offset := (mem_filter.1 (mem_of_getLast? last)).1
    rw [mem_range] at mem
    simp only [Option.map_some, Option.getD_some]
    omega

variable {n : Nat}

/-- Blanks and comments: their newlines count. -/
theorem skip (tracks : Tracks text earlier p) (le : n ≤ p.rest.length) :
    Tracks text earlier (p.skip n) := by
  have length : (p.rest.take n).length = n := length_take_of_le le
  have here : p.rest.take n <+: text.drop p.offset := tracks.rest ▸ take_prefix _ _
  have newlines := newlinesBefore_add here tracks.ended
  rw [length] at newlines
  refine ⟨?_, fun q mem => Nat.le_trans (tracks.ended q mem) (Nat.le_add_right _ _), ?_, ?_⟩
  · rw [Place.rest_skip, tracks.rest, drop_drop]
    rfl
  · change p.line + countNewlines (p.rest.take n) =
      1 + (newlinesBefore text earlier (p.offset + n)).length
    rw [newlines, length_append, length_newlineIndexes, tracks.line, Nat.add_assoc]
  · rw [Place.lineStart_skip]
    change _ = ((newlinesBefore text earlier (p.offset + n)).getLast?.map (· + 1)).getD 0
    rw [newlines]
    cases found : afterLastNewline? (p.rest.take n) with
    | some tail =>
      obtain ⟨front, split, clean⟩ := exists_front_of_afterLastNewline? found
      have last : newlineIndexes p.offset (p.rest.take n) =
          newlineIndexes p.offset front ++ [p.offset + front.length] := by
        rw [split, newlineIndexes_append, newlineIndexes, if_pos rfl, newlineIndexes_eq_nil clean]
      rw [last, ← append_assoc, getLast?_concat]
      simp only [split, length_append, length_cons, Option.map_some, Option.getD_some]
      omega
    | none =>
      have clean : newline ∉ p.rest.take n := by
        unfold afterLastNewline? at found
        split at found
        · cases found
        · rename_i missing
          exact fun mem => missing (contains_iff_mem.2 mem)
      rw [newlineIndexes_eq_nil clean, append_nil]
      exact tracks.lineStart

theorem skipComment (tracks : Tracks text earlier p) (le : n ≤ p.rest.length) :
    Tracks text earlier (p.skipComment n) :=
  have behind := tracks.skip le
  ⟨behind.rest, behind.ended, behind.line, behind.lineStart⟩

/-- A character that is passed over and is no newline. -/
theorem advance (tracks : Tracks text earlier p) (starts : p.rest = c :: rest)
    (ne : c ≠ newline) : Tracks text earlier (p.advance 1) := by
  have here : [c] <+: text.drop p.offset := tracks.rest ▸ starts ▸ ⟨rest, rfl⟩
  have newlines : newlinesBefore text earlier (p.offset + 1) = newlinesBefore text earlier p.offset := by
    have added := newlinesBefore_add here tracks.ended
    rwa [newlineIndexes_eq_nil (by simpa using ne.symm), append_nil] at added
  refine ⟨?_, fun q mem => Nat.le_succ_of_le (tracks.ended q mem), ?_, ?_⟩
  · rw [Place.rest_advance, tracks.rest, drop_drop]
    rfl
  · change p.line = 1 + (newlinesBefore text earlier (p.offset + 1)).length
    rw [newlines, tracks.line]
  · change p.lineStart = ((newlinesBefore text earlier (p.offset + 1)).getLast?.map (· + 1)).getD 0
    rw [newlines, tracks.lineStart]

/-- A token: its newlines do not count, and only a literal has any. -/
theorem afterToken (tracks : Tracks text earlier p)
    (clean : lexeme.cls ≠ .string → newline ∉ p.rest.take (lexeme.further + 1)) :
    Tracks text (earlier ++ [⟨p.offset, p.token lexeme⟩]) (p.afterToken lexeme) := by
  have value : (p.token lexeme).value = p.rest.take (lexeme.further + 1) := rfl
  have hidden (i : Nat) (ge : p.offset ≤ i) (lt : i < p.offset + (lexeme.further + 1))
      (newline : text[i]? = some newline) :
      (Placed.mk p.offset (p.token lexeme)).hides i = true := by
    have found : (p.rest.take (lexeme.further + 1))[i - p.offset]? = some Text.newline := by
      rw [getElem?_take_of_lt (by omega), tracks.rest, getElem?_drop,
        Nat.add_sub_of_le ge, newline]
    have literal : (p.token lexeme).cls = .string :=
      Decidable.byContradiction fun other => clean other (mem_of_getElem? found)
    obtain ⟨inside, -⟩ := List.getElem?_eq_some_iff.1 found
    simp only [Placed.hides, Placed.stop, literal, value, beq_self_eq_true, Bool.true_and,
      Bool.and_eq_true, decide_eq_true_eq]
    omega
  have newlines : newlinesBefore text (earlier ++ [⟨p.offset, p.token lexeme⟩])
      (p.offset + (lexeme.further + 1)) = newlinesBefore text earlier p.offset :=
    newlinesBefore_concat (Nat.le_add_right _ _) hidden
  refine ⟨?_, fun q mem => ?_, ?_, ?_⟩
  · rw [Place.rest_afterToken, tracks.rest, drop_drop]
    rfl
  · change q.stop ≤ p.offset + (lexeme.further + 1)
    rcases mem_append.1 mem with mem | mem
    · exact Nat.le_trans (tracks.ended q mem) (Nat.le_add_right _ _)
    · cases mem_singleton.1 mem
      rw [Placed.stop, value, length_take]
      simp only
      omega
  · change p.line = 1 + (newlinesBefore text _ (p.offset + (lexeme.further + 1))).length
    rw [newlines, tracks.line]
  · change p.lineStart =
      ((newlinesBefore text _ (p.offset + (lexeme.further + 1))).getLast?.map (· + 1)).getD 0
    rw [newlines, tracks.lineStart]

end Tracks

/-! ## Lexemes on one line -/

/-- A character that stands in no number, in no word and in no operator. -/
structure Foreign (bad : CodePoint) : Prop where
  number : bad ∉ Number.characters
  operator : ∀ op ∈ Vocabulary.operators, bad ∉ op
  part : Text.isIdentifierPart bad = false

theorem foreign_newline : Foreign newline := ⟨by decide, by decide, by decide⟩

/-- Only character and string literals hold a foreign character that they do not start with. In particular no other
lexeme goes over the end of a line. -/
theorem free_of_lexeme? {bad : CodePoint} (foreign : Foreign bad) (ne : c ≠ bad) {reading : Reading}
    (found : lexeme? c rest = some reading) (ok : reading.outcome = .ok lexeme)
    (other : (c == '\''.toNat || c == '"'.toNat) = true → lexeme.cls ≠ .string) :
    bad ∉ (c :: rest).take (lexeme.further + 1) := by
  have first : bad ∉ (c :: rest).take 1 := by simpa using ne.symm
  have number (isNumber : Number.IsNumber (c :: rest) lexeme) : bad ∉ (c :: rest).take (lexeme.further + 1) :=
    fun mem => foreign.number (isNumber.within.among bad mem)
  have ofLength {cls : TokenClass} {n : Nat} (free : bad ∉ (c :: rest).take n) :
      bad ∉ (c :: rest).take ((Lexeme.ofLength cls n).further + 1) := by
    cases n with
    | zero => exact first
    | succ n => exact free
  have operator (found : operatorReading? (c :: rest) = some reading) :
      bad ∉ (c :: rest).take (lexeme.further + 1) := by
    obtain ⟨op, leading, rfl⟩ := Option.map_eq_some_iff.1 found
    cases ok
    have mem : op ∈ Vocabulary.operators := mem_of_find?_eq_some leading
    rw [Vocabulary.leadingOperator?] at leading
    have starts := find?_some leading
    obtain ⟨after, split⟩ := isPrefixOf_iff_prefix.1 starts
    refine ofLength ?_
    rw [← split, take_left]
    exact foreign.operator op mem
  cases lexeme?_readBy found with
  | operator found => exact operator found
  | atSign | separator =>
    cases ok
    exact first
  | point isPoint => exact number (Number.decimal_isNumber (isPoint ▸ by decide) ok)
  | quotation quote =>
    unfold Quotation.read at ok
    split at ok <;> cases ok <;> exact absurd rfl (other quote)
  | digit digit => exact number (Number.read_isNumber (Number.mem_characters (Number.isHex_of_isDecimal digit)) ok)
  | word =>
    cases ok
    refine ofLength ?_
    rw [← prefix_iff_eq_take.1 (List.takeWhile_prefix _)]
    intro mem
    have part := mem_takeWhile_imp mem
    cases part.symm.trans foreign.part

/-! ## All tokens of a text -/

/-- From an index on the tokens stand in the text, each with the position of its start. -/
def Positioned (text : Text) (earlier : List Placed) (i : Nat) (tokens : List Token) : Prop :=
  ∃ placed : List Placed, placed.map Placed.token = tokens ∧ LaidOut text i placed ∧
    ∀ k q, placed[k]? = some q →
      q.token.position = some (positionAt text (earlier ++ placed.take k) q.start)

namespace Positioned

variable {text : Text} {earlier : List Placed} {i : Nat} {tokens : List Token}

theorem nil : Positioned text earlier i [] := ⟨[], rfl, trivial, fun k q found => by simp at found⟩

theorem after (passed : Passed text i j) (later : Positioned text earlier j tokens) :
    Positioned text earlier i tokens := by
  obtain ⟨placed, tokens_eq, laid, positions⟩ := later
  exact ⟨placed, tokens_eq, laid.after passed, positions⟩

theorem cons {token : Token} (nonempty : token.value ≠ []) (here : token.value <+: text.drop i)
    (position : token.position = some (positionAt text earlier i))
    (later : Positioned text (earlier ++ [⟨i, token⟩]) (i + token.value.length) tokens) :
    Positioned text earlier i (token :: tokens) := by
  obtain ⟨placed, rfl, laid, positions⟩ := later
  refine ⟨⟨i, token⟩ :: placed, rfl, ⟨.done i, nonempty, here, laid⟩, fun k q found => ?_⟩
  cases k with
  | zero =>
    cases found
    rw [take_zero, append_nil]
    exact position
  | succ k =>
    rw [take_succ_cons, ← singleton_append, ← append_assoc]
    exact positions k q found

theorem afterComplaints {mode : Mode} {complaints : List Complaint} {later : Lexed}
    (positioned : Positioned text earlier i later.tokens) :
    Positioned text earlier i (Lexed.afterComplaints mode complaints later).tokens := by
  unfold Lexed.afterComplaints
  split
  · exact nil
  · exact positioned

end Positioned

/-- Every step of the reader keeps track of lines. -/
theorem tokensFrom_positioned (mode : Mode) {p : Place} (tracks : Tracks text earlier p) :
    Positioned text earlier p.offset (tokensFrom mode text p).tokens := by
  have noNewline {c : CodePoint} (visible : ¬ isBlank c = true) : c ≠ newline := by
    rintro rfl
    exact visible (by decide)
  fun_induction tokensFrom mode text p generalizing earlier with
  | case1 p ended => exact .nil
  | case2 p c rest starts blank ih =>
    have run : c :: rest.takeWhile isBlank <+: p.rest := by
      rw [starts, cons_prefix_cons]
      exact ⟨rfl, takeWhile_prefix _⟩
    have isGap : IsGap (c :: rest.takeWhile isBlank) := .blank blank (.blanks fun d mem => mem_takeWhile_imp mem)
    exact (ih (tracks.skip run.length_le)).after (.gap isGap (tracks.rest ▸ run) (.done _))
  | case3 p c rest starts visible n commented ih =>
    rw [← starts] at commented
    rcases comment?_closed commented with ⟨comment, after, split, length, complete⟩ | ⟨body, -, length, -⟩
    · have le : n + 1 ≤ p.rest.length := by
        rw [split, ← length, length_append]
        exact Nat.le_add_right _ _
      have isGap : IsGap (comment ++ []) := complete.elim (.block · .nil) (.line · .nil)
      have there : comment ++ [] <+: text.drop p.offset := by
        rw [append_nil, ← tracks.rest]
        exact ⟨after, split.symm⟩
      have passed : Passed text p.offset (p.offset + (n + 1)) := by
        have passed := Passed.gap isGap there (.done _)
        rwa [append_nil, length] at passed
      exact (ih (tracks.skipComment le)).after passed
    · have ended : (p.skipComment (n + 1)).rest = [] := by
        rw [Place.rest_skipComment, ← length, drop_length]
      rw [tokensFrom_nil ended]
      exact .nil
  | case4 p c rest starts visible commented => exact .afterComplaints .nil
  | case5 p c rest starts visible uncommented unread ih =>
    have passed : Passed text p.offset (p.offset + 1) :=
      .unknown (tracks.rest ▸ starts) (Bool.eq_false_iff.2 visible) uncommented unread (.done _)
    exact .afterComplaints ((ih (tracks.advance starts (noNewline visible))).after passed)
  | case6 p c rest starts visible uncommented reading read complaints =>
    rename_i ih
    refine .afterComplaints ?_
    split
    · exact .nil
    · rename_i lexeme ok
      have clean (other : lexeme.cls ≠ .string) : newline ∉ p.rest.take (lexeme.further + 1) := by
        rw [starts]
        exact free_of_lexeme? foreign_newline (noNewline visible) read ok fun _ => other
      have later := ih lexeme (tracks.afterToken clean)
      refine .cons (by simp [Place.token, starts]) (tracks.rest ▸ take_prefix _ _)
        (congrArg some tracks.position) ?_
      -- A lexeme that its reader took to go on behind the end of the text is the last one.
      rcases Nat.le_total (lexeme.further + 1) p.rest.length with le | ge
      · rwa [show (p.token lexeme).value.length = lexeme.further + 1 from length_take_of_le le]
      · have ended : (p.afterToken lexeme).rest = [] := by
          rw [Place.rest_afterToken, drop_of_length_le ge]
        rw [tokensFrom_nil ended]
        exact .nil

theorem positionAt_eq_of_clean (here : ∀ q ∈ earlier, q.token.value <+: text.drop q.start)
    (clean : ∀ q ∈ earlier, q.token.cls = .string → newline ∉ q.token.value) :
    positionAt text earlier s = positionAt text [] s := by
  have same : newlinesBefore text earlier s = newlinesBefore text [] s := by
    refine filter_congr fun i mem => ?_
    by_cases newline : text[i]? = some newline
    · have visible : earlier.any (·.hides i) = false := by
        rw [any_eq_false]
        intro q mem hidden
        simp only [Placed.hides, Bool.and_eq_true, beq_iff_eq, decide_eq_true_eq] at hidden
        obtain ⟨⟨literal, ge⟩, lt⟩ := hidden
        rw [Placed.stop] at lt
        have inside : i - q.start < q.token.value.length := by omega
        have found := getElem?_of_prefix_drop (here q mem) inside
        rw [Nat.add_sub_of_le ge, newline] at found
        exact clean q mem literal (mem_of_getElem? found.symm)
      rw [visible, any_nil]
    · rw [beq_eq_false_iff_ne.2 newline, Bool.false_and, Bool.false_and]
  rw [positionAt, positionAt, same]

end Lexer

/-- All tokens of a source are tokens of its decoded text. -/
theorem tokens_tokenize (mode : Mode) (source : Source) : (tokenize mode source).tokens = [] ∨
      ∃ text, (Lexer.unescape source.decoded).outcome = .ok text ∧
        (tokenize mode source).tokens = (Lexer.tokensFrom mode text (Lexer.Place.start text)).tokens := by
  have of_unescaped (unescaped : Lexer.Unescaped) :
      (Lexer.tokenizeUnescaped mode unescaped).tokens = [] ∨
        ∃ text, unescaped.outcome = .ok text ∧ (Lexer.tokenizeUnescaped mode unescaped).tokens =
          (Lexer.tokensFrom mode text (Lexer.Place.start text)).tokens := by
    rw [Lexer.tokenizeUnescaped]
    cases unescaped.outcome with
    | error f => exact .inl rfl
    | ok text => exact .inr ⟨text, rfl, rfl⟩
  cases source with
  | text text =>
    rw [tokenize, Lexer.tokenizeText, Lexed.afterComplaints.eq_def]
    split
    · exact .inl rfl
    · exact of_unescaped _
  | bytes bytes =>
    rw [tokenize, Lexer.tokenizeBytes]
    split
    · exact of_unescaped _
    · exact .inl rfl

/-- **Positions.** The tokens of a source stand in its decoded text, in order, one behind the other, with only
gaps and unknown characters between them. The line of each is one more than the number of newlines before it
that are not inside of an earlier character or string literal, and its column is counted from the last of those.
If no literal holds a newline, all newlines count. A source that cannot be decoded has no tokens. -/
theorem tokenize_positions (mode : Mode) (source : Source) :
    (∀ f, (Lexer.unescape source.decoded).outcome = .error f → (tokenize mode source).tokens = []) ∧
    ∀ text, (Lexer.unescape source.decoded).outcome = .ok text →
      ∃ placed : List Lexer.Placed,
        placed.map Lexer.Placed.token = (tokenize mode source).tokens ∧
        Lexer.LaidOut text 0 placed ∧
        (∀ k q, placed[k]? = some q →
          q.token.position = some (Lexer.positionAt text (placed.take k) q.start)) ∧
        ((∀ t ∈ (tokenize mode source).tokens, t.cls = .string → Text.newline ∉ t.value) →
          ∀ q ∈ placed, q.token.position = some (Lexer.positionAt text [] q.start)) := by
  rcases tokens_tokenize mode source with none | ⟨text, decoded, tokens_eq⟩
  · rw [none]
    refine ⟨fun _ _ => rfl, fun text _ => ⟨[], rfl, trivial, fun k q found => ?_, fun _ q mem => nomatch mem⟩⟩
    rw [getElem?_nil] at found
    cases found
  · refine ⟨fun f failed => (nomatch decoded.symm.trans failed), fun text' decoded' => ?_⟩
    cases decoded.symm.trans decoded'
    obtain ⟨placed, placed_eq, laid, positions⟩ := Lexer.tokensFrom_positioned mode (.start text)
    rw [tokens_eq, ← placed_eq]
    refine ⟨placed, rfl, laid, positions, fun clean q mem => ?_⟩
    obtain ⟨k, found⟩ := getElem?_of_mem mem
    rw [positions k q found, nil_append]
    refine congrArg some (Lexer.positionAt_eq_of_clean ?_ ?_)
    · exact fun r taken => laid.here r (mem_of_mem_take taken)
    · exact fun r taken => clean r.token (mem_map_of_mem (mem_of_mem_take taken))

/-- The newline inside of the literal is not counted: what follows is still on the first line. -/
example : (tokenize .strict (.text "\"a\nb\" c")).tokens.map Token.position =
    [some ⟨1, 1⟩, some ⟨1, 7⟩] := by
  decide +kernel

end JavaSource
