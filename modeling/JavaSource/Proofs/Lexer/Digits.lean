import JavaSource.Proofs.Lexer.Scan

/-!
# Groups of digits

Every number is made of groups: digits with underscores before them, and the mark of a long integer, which the
readers take wherever digits end. `digits_split` says that a group is what the reader of digits takes, and
`digits_group` that it takes a whole group where something else follows. One thing only is in the way: in `1__l`,
where underscores stand between the digits and the mark, the reader takes an underscore in place of the mark. So what it
takes is a group unless such a mark follows, and only then: `digits_longest_iff`.
-/

namespace JavaSource.Lexer

open List Text

/-- The marks of integers: none, or that of a long one. -/
def integerMarks : List Text := Vocabulary.texts ["", "l", "L"]

theorem mark_cases {mark : Text} (isMark : mark ∈ integerMarks) :
    mark = [] ∨ ∃ c ∈ ofString "lL", mark = [c] := by
  rcases mem_cons.1 isMark with rfl | isMark
  · exact .inl rfl
  · rcases mem_cons.1 isMark with rfl | isMark
    · exact .inr ⟨'l'.toNat, by decide, rfl⟩
    · rcases mem_cons.1 isMark with rfl | isMark
      · exact .inr ⟨'L'.toNat, by decide, rfl⟩
      · cases isMark

variable {isDigit : CodePoint → Bool}

/-- Underscores that no digit follows are gone over, but not taken. -/
theorem digitRun_underscores (apart : isDigit '_'.toNat = false) {between tail : Text}
    (taken underscores : Nat) (low : ∀ c ∈ between, c = '_'.toNat)
    (stop : ∀ d ∈ tail.head?, isDigit d = false ∧ d ≠ '_'.toNat) :
    Number.digitRun isDigit taken underscores (between ++ tail) = (taken, tail.head?) := by
  induction between generalizing underscores with
  | nil =>
    cases tail with
    | nil => rfl
    | cons d tail =>
      obtain ⟨stop, stop'⟩ := stop d rfl
      rw [nil_append, Number.digitRun, if_neg (by simp [stop]), if_neg fun same => stop' (eq_of_beq same)]
      rfl
  | cons c between ih =>
    obtain ⟨rfl, lowLater⟩ := forall_mem_cons.1 low
    rw [cons_append, Number.digitRun, if_neg (Bool.eq_false_iff.1 apart), if_pos (by decide), ih _ lowLater]

/-- A run of digits and underscores is gone over up to its last digit, where no more digits follow. -/
theorem digitRun_append (apart : isDigit '_'.toNat = false)
    {digits between tail : Text} (taken underscores : Nat)
    (each : ∀ c ∈ digits, isDigit c = true ∨ c = '_'.toNat) (last : digits.getLast?.all isDigit = true)
    (low : ∀ c ∈ between, c = '_'.toNat) (settled : digits = [] → underscores = 0)
    (stop : ∀ d ∈ tail.head?, isDigit d = false ∧ d ≠ '_'.toNat) :
    Number.digitRun isDigit taken underscores (digits ++ (between ++ tail)) =
      (taken + underscores + digits.length, tail.head?) := by
  induction digits generalizing taken underscores with
  | nil =>
    rw [settled rfl, nil_append, digitRun_underscores apart _ _ low stop]
    rfl
  | cons c digits ih =>
    obtain ⟨here, eachLater⟩ := forall_mem_cons.1 each
    have lastLater : digits.getLast?.all isDigit = true := by
      cases digits with
      | nil => rfl
      | cons e digits => exact last
    rw [cons_append, Number.digitRun, length_cons]
    rcases here with digit | rfl
    · rw [if_pos digit, ih _ _ eachLater lastLater fun _ => rfl]
      congr 1
      omega
    · rw [if_neg (Bool.eq_false_iff.1 apart), if_pos (by decide), ih _ _ eachLater lastLater ?_]
      · congr 1
        omega
      · rintro rfl
        rw [getLast?_singleton, Option.all_some, apart] at last
        cases last

namespace Number

/-- What the reader of digits takes. -/
def IsGroup (isDigit : CodePoint → Bool) (group : Text) : Prop :=
  ∃ run mark, group = run ++ mark ∧ mark ∈ integerMarks ∧
    (∀ c ∈ run, isDigit c = true ∨ c = '_'.toNat) ∧ run.getLast?.all isDigit = true

/-- The digits of a base, told apart from the other characters of a group. -/
def Apart (isDigit : CodePoint → Bool) : Prop := ∀ c ∈ Text.ofString "_lL", isDigit c = false

instance (isDigit : CodePoint → Bool) : Decidable (Apart isDigit) :=
  inferInstanceAs (Decidable (∀ c ∈ Text.ofString "_lL", isDigit c = false))

/-- No group goes on with what is here. -/
def Ends (isDigit : CodePoint → Bool) (tail : Text) : Prop :=
  ∀ c ∈ tail.head?, isDigit c = false ∧ c ∉ Text.ofString "_lL"

variable {text : Text} {n : Nat}

section

/-- Digits, with any number of underscores before each of them. -/
inductive DigitRun (isDigit : CodePoint → Bool) : Text → Prop where
  | nil : DigitRun isDigit []
  | digit {underscores rest : Text} {d : CodePoint} : (∀ c ∈ underscores, c = '_'.toNat) → isDigit d = true →
    DigitRun isDigit rest → DigitRun isDigit (underscores ++ d :: rest)

namespace DigitRun

variable {run : Text}

theorem append {more : Text} (isRun : DigitRun isDigit run) (isMore : DigitRun isDigit more) :
    DigitRun isDigit (run ++ more) := by
  induction isRun with
  | nil => exact isMore
  | digit low digit _ ih =>
    rw [append_assoc, cons_append]
    exact .digit low digit ih

theorem each (isRun : DigitRun isDigit run) : ∀ c ∈ run, isDigit c = true ∨ c = '_'.toNat := by
  induction isRun with
  | nil => exact forall_mem_nil _
  | digit low digit _ ih => exact forall_mem_append.2 ⟨fun c mem => .inr (low c mem), forall_mem_cons.2 ⟨.inl digit, ih⟩⟩

theorem last (isRun : DigitRun isDigit run) : run.getLast?.all isDigit = true := by
  induction isRun with
  | nil => rfl
  | @digit underscores rest d _ digit _ ih =>
    cases rest with
    | nil => simpa using digit
    | cons e rest =>
      rw [getLast?_append, getLast?_cons_cons, getLast?_cons, Option.some_or]
      rwa [getLast?_cons] at ih

theorem underscore (isRun : DigitRun isDigit run) (nonempty : run ≠ []) : DigitRun isDigit ('_'.toNat :: run) := by
  cases isRun with
  | nil => exact absurd rfl nonempty
  | digit low digit later => exact .digit (forall_mem_cons.2 ⟨rfl, low⟩) digit later

/-- What a run starts with is a digit, or an underscore and then more of the run. -/
theorem of_cons {c : CodePoint} (isRun : DigitRun isDigit (c :: run)) :
    DigitRun isDigit run ∧ (isDigit c = true ∨ c = '_'.toNat ∧ run ≠ []) := by
  generalize whole : c :: run = text at isRun
  cases isRun with
  | nil => cases whole
  | @digit underscores rest d low digit later =>
    cases underscores with
    | nil =>
      cases whole
      exact ⟨later, .inl digit⟩
    | cons u underscores =>
      obtain ⟨first, others⟩ := forall_mem_cons.1 low
      cases whole
      exact ⟨.digit others digit later, .inr ⟨first, by simp⟩⟩

end DigitRun

/-- The longest run at the start of a text is read, and what stands behind the underscores behind it. -/
theorem digitRun_longest (isDigit : CodePoint → Bool) (text : Text) (taken underscores : Nat) :
    ∃ run rest, text = run ++ rest ∧ DigitRun isDigit run ∧
      (∀ other, DigitRun isDigit other → other <+: text → other.length ≤ run.length) ∧
      digitRun isDigit taken underscores text =
        (if run = [] then taken else taken + underscores + run.length, (rest.dropWhile (· == '_'.toNat)).head?) := by
  induction text generalizing taken underscores with
  | nil => exact ⟨[], [], rfl, .nil, fun _ _ starts => starts.length_le, rfl⟩
  | cons c text ih =>
    have shorter {run other : Text}
        (longest : ∀ other, DigitRun isDigit other → other <+: text → other.length ≤ run.length)
        (isRun : DigitRun isDigit other) (starts : other <+: c :: text) : other.length ≤ run.length + 1 := by
      cases other with
      | nil => exact Nat.zero_le _
      | cons d other => exact Nat.succ_le_succ (longest other isRun.of_cons.1 (cons_prefix_cons.1 starts).2)
    rw [digitRun]
    split
    · rename_i digit
      obtain ⟨run, rest, rfl, isRun, longest, read⟩ := ih (taken + underscores + 1) 0
      refine ⟨c :: run, rest, rfl, .digit (forall_mem_nil _) digit isRun, fun _ => shorter longest, ?_⟩
      rw [read, if_neg (cons_ne_nil c run), length_cons]
      congr 1
      split <;> simp_all
      omega
    · rename_i noDigit
      have nothing {other : Text} (isRun : DigitRun isDigit other) (starts : other <+: c :: text)
          (none_left : c = '_'.toNat → other.tail = []) : other = [] := by
        cases other with
        | nil => rfl
        | cons d other =>
          obtain rfl := (cons_prefix_cons.1 starts).1
          rcases isRun.of_cons.2 with digit | ⟨low, more⟩
          · exact absurd digit noDigit
          · exact absurd (none_left low) more
      split
      · rename_i underscore
        obtain rfl := eq_of_beq underscore
        obtain ⟨run, rest, rfl, isRun, longest, read⟩ := ih taken (underscores + 1)
        cases run with
        | nil =>
          refine ⟨[], _ :: rest, rfl, .nil, fun other isOther starts => ?_, read⟩
          have le := shorter longest isOther starts
          have none_left : other.tail = [] := by
            rw [← length_eq_zero_iff, length_tail]
            exact Nat.sub_eq_zero_of_le le
          exact Nat.le_of_eq (congrArg length (nothing isOther starts fun _ => none_left))
        | cons d run =>
          refine ⟨_ :: d :: run, rest, rfl, isRun.underscore (cons_ne_nil d run), fun _ => shorter longest, ?_⟩
          rw [read, if_neg (cons_ne_nil _ _), if_neg (cons_ne_nil _ _)]
          simp only [length_cons]
          congr 1
          omega
      · rename_i noUnderscore
        refine ⟨[], c :: text, rfl, .nil, fun other isOther starts => ?_, ?_⟩
        · exact Nat.le_of_eq (congrArg length
            (nothing isOther starts fun same => absurd (beq_iff_eq.2 same) noUnderscore))
        · simp only [dropWhile_cons, noUnderscore]
          rfl

/-- The digits that are read, the underscores behind them, and whether the mark of a long integer follows these. -/
theorem digits_run (read : digits isDigit text = .ok n) :
    ∃ run between rest, text = run ++ (between ++ rest) ∧
      (∀ c ∈ run, isDigit c = true ∨ c = '_'.toNat) ∧ run.getLast?.all isDigit = true ∧
      (∀ c ∈ between, c = '_'.toNat) ∧ (∀ d ∈ rest.head?, isDigit d = false ∧ d ≠ '_'.toNat) ∧
      (if rest.head?.any (oneOf "lL") then run.length + 1 else run.length) = n := by
  unfold digits at read
  split at read
  · cases read
  · obtain ⟨run, rest, rfl, isRun, longest, ran⟩ := digitRun_longest isDigit text 0 0
    have taken : (if run = [] then 0 else 0 + 0 + run.length) = run.length := by
      split <;> simp_all
    have low : ∀ c ∈ rest.takeWhile (· == '_'.toNat), c = '_'.toNat := fun c mem => eq_of_beq (all_eq_true.1 all_takeWhile c mem)
    rw [ran, taken] at read
    refine ⟨run, _, _, by rw [takeWhile_append_dropWhile], isRun.each, isRun.last, low, fun d next => ?_,
      Except.ok.inj read⟩
    have stop := head?_dropWhile_not (· == '_'.toNat) rest
    rw [Option.mem_def.1 next] at stop
    refine ⟨Bool.eq_false_iff.2 fun digit => ?_, by simpa using stop⟩
    obtain ⟨after, behind⟩ := head?_eq_some_iff.1 next
    have longer := longest _ (isRun.append (.digit low digit .nil)) (by
      rw [prefix_append_right_inj]
      exact ⟨after, by rw [append_assoc, singleton_append, ← behind, takeWhile_append_dropWhile]⟩)
    simp only [length_append, length_cons] at longer
    omega

/-- **What is taken** of a text is a group, or it ends in an underscore, and then more of what a group holds
follows. -/
theorem digits_split (read : digits isDigit text = .ok n) :
    ∃ group rest, text = group ++ rest ∧ group.length = n ∧
      (IsGroup isDigit group ∨
        group.getLast? = some '_'.toNat ∧ rest.head?.any (oneOf "_lL") = true) := by
  obtain ⟨run, between, rest, rfl, each, last, low, -, length⟩ := digits_run read
  cases marked : rest.head?.any (oneOf "lL") with
  | false =>
    rw [marked] at length
    exact ⟨run, between ++ rest, by simp, length, .inl ⟨run, [], by simp, by decide, each, last⟩⟩
  | true =>
    rw [marked] at length
    cases rest with
    | nil => cases marked
    | cons c rest =>
      have letter : c ∈ ofString "lL" := contains_iff_mem.1 marked
      cases between with
      | nil =>
        have marks : ∀ c ∈ ofString "lL", [c] ∈ integerMarks := by decide
        refine ⟨run ++ [c], rest, by simp, ?_, .inl ⟨run, [c], rfl, marks c letter, each, last⟩⟩
        rw [← length, length_append]
        rfl
      | cons d between =>
        have here : d = '_'.toNat := low d mem_cons_self
        refine ⟨run ++ [d], between ++ c :: rest, by simp, ?_, .inr ⟨by simp [here], ?_⟩⟩
        · rw [← length, length_append]
          rfl
        · have marks : ∀ c ∈ ofString "lL", oneOf "_lL" c = true := by decide
          cases between with
          | nil => exact marks c letter
          | cons e between =>
            have next : e = '_'.toNat := low e (by simp)
            rw [next]
            rfl

/-- **A group is taken** whole where no group goes on. -/
theorem digits_group (apart : Apart isDigit) {group tail : Text} (isGroup : IsGroup isDigit group)
    (ends : Ends isDigit tail) (nonempty : group ++ tail ≠ []) :
    digits isDigit (group ++ tail) = .ok group.length := by
  obtain ⟨run, mark, rfl, isMark, each, last⟩ := isGroup
  have ran (rest : Text) (stop : ∀ d ∈ rest.head?, isDigit d = false ∧ d ≠ '_'.toNat) :
      digitRun isDigit 0 0 (run ++ rest) = (run.length, rest.head?) := by
    have none_between : ∀ c ∈ ([] : Text), c = '_'.toNat := by simp
    have ran := digitRun_append (apart _ (by decide)) 0 0 each last none_between (fun _ => rfl) stop
    rwa [Nat.zero_add] at ran
  rw [digits, if_neg (by simpa using nonempty), append_assoc]
  rcases mark_cases isMark with rfl | ⟨c, mem, rfl⟩
  · have unmarked : tail.head?.any (oneOf "lL") = false := by
      cases tail with
      | nil => rfl
      | cons d tail =>
        refine Bool.eq_false_iff.2 fun marked => (ends d rfl).2 ?_
        exact mem_cons_of_mem _ (contains_iff_mem.1 marked)
    rw [nil_append, ran tail fun d mem => ⟨(ends d mem).1, ?_⟩]
    · simp [unmarked]
    · rintro rfl
      exact (ends _ mem).2 (by decide)
  · have letters : ∀ c ∈ ofString "lL", c ∈ ofString "_lL" ∧ c ≠ '_'.toNat := by decide
    rw [singleton_append, ran (c :: tail)]
    · simp [oneOf, mem]
    · rintro d ⟨⟩
      exact ⟨apart c (letters c mem).1, (letters c mem).2⟩

end

/-- Underscores, and the mark of a long integer behind them. -/
def HidesMark (rest : Text) : Prop :=
  rest.head? = some '_'.toNat ∧ (rest.dropWhile (· == '_'.toNat)).head?.any (Text.oneOf "lL") = true

/-- **Digits.** Of a text that is not empty the longest run at its start is read, that is digits with any number of
underscores before each of them. One more character is read exactly if the mark of a long integer follows, right behind
the run or behind underscores. So what is read is the run, with the mark if it stands right behind it, exactly if there
are no underscores between the two; and only if there are, what is read ends with an underscore. -/
theorem digits_longest_iff (isDigit : CodePoint → Bool) (text : Text) :
    (text = [] → digits isDigit text = .error .numberAtEnd) ∧
    (text ≠ [] → ∃ run rest n, text = run ++ rest ∧ DigitRun isDigit run ∧
      (∀ other, DigitRun isDigit other → other <+: text → other.length ≤ run.length) ∧
      digits isDigit text = .ok n ∧
      (n = if (rest.dropWhile (· == '_'.toNat)).head?.any (oneOf "lL") then run.length + 1 else run.length) ∧
      ((n = if rest.head?.any (oneOf "lL") then run.length + 1 else run.length) ↔ ¬ HidesMark rest) ∧
      (isDigit '_'.toNat = false → ((text.take n).getLast? = some '_'.toNat ↔ HidesMark rest))) := by
  refine ⟨fun empty => by rw [empty]; rfl, fun nonempty => ?_⟩
  obtain ⟨run, rest, rfl, isRun, longest, ran⟩ := digitRun_longest isDigit text 0 0
  have taken : (if run = [] then 0 else 0 + 0 + run.length) = run.length := by
    split <;> simp_all
  have read : digits isDigit (run ++ rest) = .ok (if (rest.dropWhile (· == '_'.toNat)).head?.any (oneOf "lL")
      then run.length + 1 else run.length) := by
    rw [digits, if_neg (by simpa using nonempty), ran, taken]
  refine ⟨run, rest, _, rfl, isRun, longest, read, rfl, ?_, fun apart => ?_⟩
  · cases rest with
    | nil => simp [HidesMark]
    | cons c rest =>
      by_cases low : c = '_'.toNat
      · subst low
        have noMark : oneOf "lL" '_'.toNat = false := by decide
        simp only [HidesMark, head?_cons, true_and, Option.any_some, noMark]
        split <;> simp_all
      · have noUnderscore : ¬ (c == '_'.toNat) = true := fun same => low (eq_of_beq same)
        rw [dropWhile_cons, if_neg noUnderscore]
        exact iff_of_true rfl fun hides => low (Option.some.inj hides.1)
  · have lastDigit : run.getLast? ≠ some '_'.toNat := fun last => by
      have digit := isRun.last
      rw [last] at digit
      exact Bool.false_ne_true (apart.symm.trans digit)
    split
    · rename_i marked
      cases rest with
      | nil => cases marked
      | cons c rest =>
        rw [take_length_add_append, take_succ_cons, take_zero, getLast?_concat]
        exact ⟨fun last => ⟨last, marked⟩, And.left⟩
    · rename_i unmarked
      rw [take_left]
      exact iff_of_false lastDigit fun hides => unmarked hides.2

/-- Where an underscore stands before the mark, it is read in place of the mark. -/
theorem digits_underscore_read : digits isDecimal (ofString "1_l") = .ok 2 ∧
    ((ofString "1_l").take 2).getLast? = some '_'.toNat := ⟨rfl, rfl⟩

/-! ## Looking at a place of a text -/

theorem isAt_append (group rest : Text) (s : String) :
    isAt (group ++ rest) group.length s = rest.head?.any (oneOf s) := by
  rw [isAt, getElem?_append_right (Nat.le_refl _), Nat.sub_self, head?_eq_getElem?]

theorem isAt_eq_drop (text : Text) (n : Nat) (s : String) :
    isAt text n s = (text.drop n).head?.any (oneOf s) := by
  rw [isAt, head?_drop]

theorem drop_of_isAt {s : String} (here : isAt text n s = true) :
    ∃ c, oneOf s c = true ∧ text.drop n = c :: text.drop (n + 1) := by
  rw [isAt_eq_drop] at here
  cases dropped : text.drop n with
  | nil =>
    rw [dropped] at here
    cases here
  | cons c rest =>
    rw [dropped] at here
    refine ⟨c, here, ?_⟩
    rw [← drop_drop, dropped]
    rfl

/-! ## Parts of a number -/

variable {isDigit : CodePoint → Bool} {group rest : Text}

theorem drop_further (front : Text) (dropped : text.drop n = front ++ rest) : text.drop (n + front.length) = rest :=
    by
  rw [← drop_drop, dropped, drop_left]

theorem digitsAt_group (apart : Apart isDigit) (isGroup : IsGroup isDigit group)
    (ends : Ends isDigit rest) (nonempty : group ++ rest ≠ []) (dropped : text.drop n = group ++ rest) :
    digitsAt isDigit text n = .ok (n + group.length) := by
  rw [digitsAt, dropped, digits_group apart isGroup ends nonempty]
  rfl

/-- A fraction is taken whole where no group goes on. -/
theorem fraction_group (apart : Apart isDigit) (isGroup : IsGroup isDigit group) (ends : Ends isDigit rest)
    (nonempty : group ++ rest ≠ []) (dropped : text.drop n = '.'.toNat :: group ++ rest) :
    fraction isDigit text n = .ok (n + 1 + group.length) ∧ text.drop (n + 1 + group.length) = rest := by
  have point : isAt text n "." = true := by
    rw [isAt_eq_drop, dropped]
    rfl
  have behind : text.drop (n + 1) = group ++ rest := drop_further ['.'.toNat] dropped
  rw [fraction, if_pos point]
  exact ⟨digitsAt_group apart isGroup ends nonempty behind, drop_further group behind⟩

end Number

end JavaSource.Lexer
