import JavaSource.Lexer.Escapes
import Mathlib.Data.List.TakeWhile

/-!
# Where escapes stand

A backslash is eligible to start an escape if an even number of backslashes stands right before it, and with the
`u` that follow it, it is the marker of an escape: `IsMarker`. Between two escapes there is nothing but characters that
are copied, `Copied`, and `segments` is the induction that goes from each escape to the next one.
-/

namespace JavaSource.Lexer

open List Text

/-! ## Markers -/

def backslashes (text : Text) : Nat := (text.reverse.takeWhile (· == '\\'.toNat)).length

/-- Behind `before` the text has the marker of an escape, an eligible backslash and all the `u` behind it, and then
`after`. -/
structure IsMarker (text before : Text) (us : Nat) (after : Text) : Prop where
  split : text = before ++ '\\'.toNat :: (Text.copies us 'u' ++ after)
  pos : 0 < us
  whole : after.head? ≠ some 'u'.toNat
  eligible : backslashes before % 2 = 0

/-- A text behind which a backslash is as eligible as at the start of a text. -/
def Closed (front : Text) : Prop := ∀ before, backslashes (front ++ before) % 2 = backslashes before % 2

/-- Backslashes at the end of a text count with those in front of it only if it has no other character. -/
theorem backslashes_append (front before : Text) : backslashes (front ++ before) =
      if backslashes before = before.length then before.length + backslashes front else backslashes before := by
  rw [backslashes, backslashes, backslashes, reverse_append, takeWhile_append, length_reverse]
  split
  · rw [length_append, length_reverse]
  · rfl

variable {c : CodePoint} {front before after since : Text} {us : Nat}

theorem closed_of_last (front : Text) (ne : c ≠ '\\'.toNat) : Closed (front ++ [c]) := by
  intro before
  have none_last : backslashes (front ++ [c]) = 0 := by
    rw [backslashes, reverse_append, reverse_singleton, singleton_append, takeWhile_cons,
      if_neg fun same => ne (eq_of_beq same), length_nil]
  rw [backslashes_append]
  split
  · omega
  · rfl

theorem closed_pair (c : CodePoint) : Closed ['\\'.toNat, c] := by
  by_cases same : c = '\\'.toNat
  · subst same
    intro before
    have two : backslashes ['\\'.toNat, '\\'.toNat] = 2 := rfl
    rw [backslashes_append]
    split
    · omega
    · rfl
  · exact closed_of_last ['\\'.toNat] same

/-- No marker starts in a text, whatever follows it. -/
def Unmarked (front : Text) : Prop :=
  ∀ text before us after, IsMarker (front ++ text) before us after ↔
    ∃ rest, before = front ++ rest ∧ IsMarker text rest us after

theorem Unmarked.append {back : Text} (isFront : Unmarked front) (isBack : Unmarked back) :
    Unmarked (front ++ back) := by
  intro text before us after
  rw [append_assoc, isFront]
  constructor
  · rintro ⟨between, rfl, marker⟩
    obtain ⟨rest, rfl, behind⟩ := (isBack _ _ _ _).1 marker
    exact ⟨rest, (append_assoc _ _ _).symm, behind⟩
  · rintro ⟨rest, rfl, marker⟩
    exact ⟨back ++ rest, append_assoc _ _ _, (isBack _ _ _ _).2 ⟨rest, rfl, marker⟩⟩

theorem Closed.isMarker (closed : Closed front) {text : Text} :
    IsMarker (front ++ text) (front ++ before) us after ↔ IsMarker text before us after := by
  constructor
  · rintro ⟨split, pos, whole, eligible⟩
    rw [append_assoc, append_right_inj] at split
    exact ⟨split, pos, whole, (closed before).symm.trans eligible⟩
  · rintro ⟨split, pos, whole, eligible⟩
    refine ⟨?_, pos, whole, (closed before).trans eligible⟩
    rw [split, append_assoc]

theorem unmarked_char (ne : c ≠ '\\'.toNat) : Unmarked [c] := by
  intro text before us after
  have closed := closed_of_last [] ne
  constructor
  · intro marker
    cases before with
    | nil =>
      have split := marker.split
      injection split with same _
      exact absurd same ne
    | cons d front =>
      have split := marker.split
      injection split with same _
      subst same
      exact ⟨front, rfl, closed.isMarker.1 marker⟩
  · rintro ⟨front, rfl, marker⟩
    exact closed.isMarker.2 marker

/-- No marker starts in a pair: the first backslash is followed by something else, and the second is not eligible. -/
theorem unmarked_pair (ne : c ≠ 'u'.toNat) : Unmarked ['\\'.toNat, c] := by
  intro text before us after
  have closed := closed_pair c
  constructor
  · intro marker
    have split := marker.split
    rcases before with _ | ⟨d, _ | ⟨e, front⟩⟩
    · obtain ⟨us, rfl⟩ := Nat.exists_eq_succ_of_ne_zero (Nat.ne_of_gt marker.pos)
      injection split with _ split
      injection split with same _
      exact absurd same ne
    · injection split with same _
      subst same
      exact absurd marker.eligible (by decide)
    · injection split with same split
      injection split with same' _
      subst same same'
      exact ⟨front, rfl, closed.isMarker.1 marker⟩
  · rintro ⟨front, rfl, marker⟩
    exact closed.isMarker.2 marker

theorem not_isMarker_nil : ¬ IsMarker [] before us after := by
  intro marker
  exact absurd marker.split (by simp)

theorem not_isMarker_lone : ¬ IsMarker ['\\'.toNat] before us after := by
  intro marker
  have lengths := congrArg List.length marker.split
  have pos := marker.pos
  simp only [copies, length_append, length_cons, length_replicate, length_nil] at lengths
  omega

/-- The `u` of a marker and what follows them can be told apart. -/
theorem copies_append_inj {us' : Nat} {after' : Text}
    (same : copies us 'u' ++ after = copies us' 'u' ++ after') (whole : after.head? ≠ some 'u'.toNat)
    (whole' : after'.head? ≠ some 'u'.toNat) : us = us' ∧ after = after' := by
  induction us generalizing us' with
  | zero =>
    cases us' with
    | zero => exact ⟨rfl, same⟩
    | succ us' =>
      have starts : after = 'u'.toNat :: (copies us' 'u' ++ after') := same
      exact absurd (congrArg List.head? starts) whole
  | succ us ih =>
    cases us' with
    | zero =>
      have starts : 'u'.toNat :: (copies us 'u' ++ after) = after' := same
      exact absurd (congrArg List.head? starts.symm) whole'
    | succ us' =>
      have same : 'u'.toNat :: (copies us 'u' ++ after) = 'u'.toNat :: (copies us' 'u' ++ after') := same
      injection same with _ same
      obtain ⟨rfl, rfl⟩ := ih same
      exact ⟨rfl, rfl⟩

/-- A character stands in the first part of a text or in the second. -/
theorem append_eq_append_cons {first second back : Text} (same : first ++ second = front ++ c :: back) :
    (∃ middle, first = front ++ c :: middle ∧ back = middle ++ second) ∨
      ∃ middle, front = first ++ middle ∧ second = middle ++ c :: back := by
  rcases append_eq_append_iff.1 same with ⟨middle, rfl, rfl⟩ | ⟨middle, rfl, second_eq⟩
  · exact .inr ⟨middle, rfl, rfl⟩
  · cases middle with
    | nil => exact .inr ⟨[], by simp, second_eq.symm⟩
    | cons d middle =>
      obtain ⟨rfl, rfl⟩ := List.cons.inj second_eq
      exact .inl ⟨middle, rfl, rfl⟩

theorem notMem_copies {digits : Text} (ne : c ≠ 'u'.toNat) (none_inside : c ∉ digits) (us : Nat) :
    c ∉ copies us 'u' ++ digits := by
  rw [mem_append, copies, mem_replicate]
  rintro (⟨-, same⟩ | mem)
  · exact ne same
  · exact none_inside mem

/-- A marker and characters behind it that are no backslashes. -/
theorem isMarker_escape {us : Nat} (pos : 0 < us) {digits text : Text} (none_inside : '\\'.toNat ∉ digits)
    (whole : (digits ++ text).head? ≠ some 'u'.toNat) {before : Text} {us' : Nat} {after : Text} :
    IsMarker ('\\'.toNat :: (copies us 'u' ++ (digits ++ text))) before us' after ↔
      (before = [] ∧ us' = us ∧ after = digits ++ text) ∨
        ∃ front, before = '\\'.toNat :: (copies us 'u' ++ digits) ++ front ∧ IsMarker text front us' after := by
  have clean := notMem_copies (by decide) none_inside us
  have closed : Closed ('\\'.toNat :: (copies us 'u' ++ digits)) := by
    rcases (copies us 'u' ++ digits).eq_nil_or_concat with empty | ⟨body, c, last⟩
    · have none_left := (append_eq_nil_iff.1 empty).1
      rw [copies, replicate_eq_nil_iff] at none_left
      omega
    · rw [concat_eq_append] at last
      rw [last] at clean ⊢
      refine closed_of_last ('\\'.toNat :: body) ?_
      rintro rfl
      exact clean (mem_append_right _ mem_cons_self)
  constructor
  · rintro ⟨split, pos', whole', eligible⟩
    cases before with
    | nil =>
      injection split with _ split
      obtain ⟨rfl, rfl⟩ := copies_append_inj split whole whole'
      exact .inl ⟨rfl, rfl, rfl⟩
    | cons d before =>
      injection split with same split
      subst same
      rw [← append_assoc] at split
      rcases append_eq_append_cons split with ⟨middle, same, -⟩ | ⟨front, rfl, behind⟩
      · exact absurd (same ▸ mem_append_right _ mem_cons_self) clean
      · exact .inr ⟨front, rfl, behind, pos', whole', (closed front).symm.trans eligible⟩
  · rintro (⟨rfl, rfl, rfl⟩ | ⟨front, rfl, marker⟩)
    · exact ⟨rfl, pos, whole, rfl⟩
    · have behind := closed.isMarker.2 marker
      rwa [cons_append, append_assoc] at behind

/-! ## Between two escapes -/

/-- Characters that are copied: all but backslashes, and backslashes with the character that follows them, if that is
no `u`. -/
inductive Copied : Text → Prop where
  | nil : Copied []
  | char {c : CodePoint} {rest : Text} : c ≠ '\\'.toNat → Copied rest → Copied (c :: rest)
  | pair {c : CodePoint} {rest : Text} : c ≠ 'u'.toNat → Copied rest → Copied ('\\'.toNat :: c :: rest)

theorem Copied.append {back : Text} (copied : Copied since) (later : Copied back) : Copied (since ++ back) := by
  induction copied with
  | nil => exact later
  | char ne _ ih => exact .char ne ih
  | pair ne _ ih => exact .pair ne ih

theorem copied_of_notMem (clean : '\\'.toNat ∉ since) : Copied since := by
  induction since with
  | nil => exact .nil
  | cons c since ih =>
    rw [mem_cons, not_or] at clean
    exact .char (Ne.symm clean.1) (ih clean.2)

theorem Copied.unmarked (copied : Copied since) : Unmarked since := by
  induction copied with
  | nil =>
    intro text before us after
    simp
  | char ne _ ih => exact (unmarked_char ne).append ih
  | pair ne _ ih => exact (unmarked_pair ne).append ih

theorem Copied.isMarker (copied : Copied since) (pos : 0 < us) (whole : after.head? ≠ some 'u'.toNat) :
    IsMarker (since ++ '\\'.toNat :: (copies us 'u' ++ after)) since us after :=
  (copied.unmarked _ _ _ _).2 ⟨[], (append_nil since).symm, rfl, pos, whole, rfl⟩

theorem Copied.unescapeFrom_append (copied : Copied since) (earlierCopied : Text) (earlier : Option Int)
    (text : Text) : unescapeFrom earlierCopied earlier .plain (since ++ text) =
      unescapeFrom (since.reverse ++ earlierCopied) earlier .plain text := by
  induction copied generalizing earlierCopied with
  | nil => rfl
  | @char c rest ne _ ih =>
    rw [cons_append, unescapeFrom, if_neg fun same => ne (eq_of_beq same), ih, reverse_cons,
      append_assoc, singleton_append]
  | @pair c rest ne _ ih =>
    rw [cons_append, cons_append, unescapeFrom, if_pos (beq_self_eq_true _), unescapeFrom,
      if_neg fun same => ne (eq_of_beq same), ih, reverse_cons, reverse_cons]
    simp

theorem exists_copies (text : Text) : ∃ us after, text = copies us 'u' ++ after ∧
    after.head? ≠ some 'u'.toNat := by
  induction text with
  | nil => exact ⟨0, [], rfl, by simp⟩
  | cons c text ih =>
    by_cases same : c = 'u'.toNat
    · obtain ⟨us, after, rfl, whole⟩ := ih
      exact ⟨us + 1, after, by rw [same]; rfl, whole⟩
    · exact ⟨0, c :: text, rfl, by simpa using same⟩

/-- A text is copied up to its end, up to a backslash at its end, or up to a marker. -/
theorem exists_segment (text : Text) : ∃ since back, text = since ++ back ∧ Copied since ∧
    (back = [] ∨ back = ['\\'.toNat] ∨ ∃ us after, back = '\\'.toNat :: (copies us 'u' ++ after) ∧ 0 < us ∧
      after.head? ≠ some 'u'.toNat) := by
  generalize size_eq : text.length = size
  induction size using Nat.strongRecOn generalizing text with
  | ind size ih =>
    cases text with
    | nil => exact ⟨[], [], rfl, .nil, .inl rfl⟩
    | cons c rest =>
      by_cases slash : c = '\\'.toNat
      · subst slash
        cases rest with
        | nil => exact ⟨[], ['\\'.toNat], rfl, .nil, .inr (.inl rfl)⟩
        | cons d rest =>
          by_cases isU : d = 'u'.toNat
          · subst isU
            obtain ⟨us, after, rfl, whole⟩ := exists_copies rest
            exact ⟨[], _, rfl, .nil, .inr (.inr ⟨us + 1, after, rfl, Nat.succ_pos us, whole⟩)⟩
          · have shorter : rest.length < size := by
              rw [← size_eq, length_cons, length_cons]
              omega
            obtain ⟨since, back, rfl, copied, ends⟩ := ih rest.length shorter rest rfl
            exact ⟨_, back, rfl, .pair isU copied, ends⟩
      · have shorter : rest.length < size := by
          rw [← size_eq, length_cons]
          omega
        obtain ⟨since, back, rfl, copied, ends⟩ := ih rest.length shorter rest rfl
        exact ⟨_, back, rfl, .char slash copied, ends⟩

/-- The induction from escape to escape. Behind a marker, at most four characters belong to the escape. -/
theorem segments {motive : Text → Prop} (last : ∀ since, Copied since → motive since)
    (lone : ∀ since, Copied since → motive (since ++ ['\\'.toNat]))
    (cut : ∀ since us, Copied since → 0 < us → motive (since ++ '\\'.toNat :: copies us 'u'))
    (escape : ∀ since us digits rest, Copied since → 0 < us → digits ≠ [] → (digits ++ rest).take 4 = digits →
      digits.head? ≠ some 'u'.toNat → motive rest →
      motive (since ++ '\\'.toNat :: (copies us 'u' ++ (digits ++ rest)))) (text : Text) : motive text := by
  generalize size_eq : text.length = size
  induction size using Nat.strongRecOn generalizing text with
  | ind size ih =>
    obtain ⟨since, back, rfl, copied, rfl | rfl | ⟨us, after, rfl, pos, whole⟩⟩ := exists_segment text
    · rw [append_nil]
      exact last since copied
    · exact lone since copied
    · cases after with
      | nil =>
        rw [append_nil]
        exact cut since us copied pos
      | cons c rest =>
        have shorter : ((c :: rest).drop 4).length < size := by
          rw [← size_eq]
          simp only [length_append, length_cons, length_drop]
          omega
        have behind := escape since us ((c :: rest).take 4) ((c :: rest).drop 4) copied pos (by simp)
          (by rw [take_append_drop]) whole (ih _ shorter _ rfl)
        rwa [take_append_drop] at behind

theorem unescapeFrom_copies (copied : Text) (earlier : Option Int) (k us : Nat) (text : Text) :
    unescapeFrom copied earlier (.marker k) (copies us 'u' ++ text) =
      unescapeFrom copied earlier (.marker (k + us)) text := by
  induction us generalizing k with
  | zero => rfl
  | succ us ih =>
    rw [copies, replicate_succ, cons_append, unescapeFrom, if_pos (by decide)]
    exact (ih (k + 1)).trans (by rw [Nat.add_right_comm]; rfl)

theorem unescapeFrom_marker (pos : 0 < us) (copied : Text) (earlier : Option Int) (text : Text) :
    unescapeFrom copied earlier .plain ('\\'.toNat :: (copies us 'u' ++ text)) =
      unescapeFrom copied earlier (.marker us) text := by
  obtain ⟨us, rfl⟩ := Nat.exists_eq_succ_of_ne_zero (Nat.ne_of_gt pos)
  rw [copies, replicate_succ, cons_append, unescapeFrom, if_pos (by decide), unescapeFrom, if_pos (by decide)]
  exact (unescapeFrom_copies copied earlier 1 us text).trans (by rw [Nat.add_comm])

/-- What the characters behind a marker give: the code of the escape, or that of the one before it. -/
theorem unescapeFrom_escaped (pos : 0 < us) {digits rest : Text} (nonempty : digits ≠ [])
    (head : digits.head? ≠ some 'u'.toNat) (whole : (digits ++ rest).take 4 = digits) (copied : Text)
    (earlier : Option Int) {invalid : List Text} (isInvalid : invalid = if (hexNumber? digits).isSome then [] else [digits]) :
    unescapeFrom copied earlier .plain ('\\'.toNat :: (copies us 'u' ++ (digits ++ rest))) =
      ((hexNumber? digits).or earlier).elim { outcome := .error .noEarlierCode, invalid } fun code =>
        if code < 0 then { outcome := .error .negativeCode, invalid }
        else (unescapeFrom [] (some code) .plain rest).after (copied.reverse ++ [code.toNat]) invalid := by
  obtain ⟨c, more, rfl⟩ := exists_cons_of_ne_nil nonempty
  have behind : (more ++ rest).drop 3 = rest := by
    have split := take_append_drop 4 (c :: more ++ rest)
    rw [whole, append_right_inj] at split
    exact split
  have taken : (c :: (more ++ rest)).take 4 = c :: more := whole
  refine (unescapeFrom_marker pos copied earlier _).trans ?_
  rw [cons_append, unescapeFrom, if_neg fun same => head (congrArg some (eq_of_beq same)), isInvalid]
  simp only [taken, behind]
  cases (hexNumber? (c :: more)).or earlier <;> rfl

end JavaSource.Lexer
