import JavaSource.Proofs.Lexer.Malformed

/-!
# Texts that decoding leaves as they are

A text without escapes is left as it is, unless it ends inside a marker. Some texts with an escape are left as they are
as well: where a text ends inside a marker, what stands since the last escape is written twice, and that can make up
for the escape. `Decodes.unchanged_escape` says what such a text looks like: it has one escape only, and that escape
stands for a backslash and is followed by its own characters without the backslash and then by the marker at the end.
-/

namespace JavaSource.Lexer

open List Text

variable {text decoded front back between since after ahead : Text} {us : Nat}

/-! ## What is decoded -/

/-- Where decoding comes to the end of a text without a complaint, it has decoded it. -/
theorem decodes_of_unescapeFrom {earlier : Option Int} (ok : (unescapeFrom [] earlier .plain text).outcome = .ok decoded)
    (valid : (unescapeFrom [] earlier .plain text).invalid = []) : Decodes text decoded := by
  rcases decodes_or_stops text with ⟨decoded', decodes⟩ | ⟨before, us, after, -, stopped⟩
  · rw [decodes.unescapeFrom_eq earlier] at ok
    cases ok
    exact decodes
  · cases number : hexNumber? (after.take 4) with
    | none =>
      have invalid := (stopped earlier).invalid number
      rw [valid] at invalid
      cases invalid
    | some n =>
      rw [(stopped earlier).negative (by simp [number])] at ok
      cases ok

theorem Decodes.unique {decoded' : Text} (decodes : Decodes text decoded) (other : Decodes text decoded') :
    decoded = decoded' :=
  Except.ok.inj (congrArg Unescaped.outcome ((decodes.unescapeFrom_eq none).symm.trans (other.unescapeFrom_eq none)))

/-- The first marker of a text that is decoded, if anything stands behind it, belongs to an escape with a code. -/
theorem Decodes.of_marker (copied : Copied since) (pos : 0 < us) (whole : after.head? ≠ some 'u'.toNat)
    (nonempty : after ≠ []) (decodes : Decodes (since ++ '\\'.toNat :: (copies us 'u' ++ after)) decoded) :
    ∃ digits rest, ∃ n : Nat, ∃ later, after = digits ++ rest ∧ (digits ++ rest).take 4 = digits ∧
      hexNumber? digits = some (n : Int) ∧ decoded = since ++ n :: later ∧ Decodes rest later := by
  have split := take_append_drop 4 after
  have digitsNonempty : after.take 4 ≠ [] := by simpa using nonempty
  have head : (after.take 4).head? ≠ some 'u'.toNat := by rwa [head?_take, if_neg (by decide)]
  have read := decodes.unescapeFrom_eq none
  rw [← split, copied.unescapeFrom_append, unescapeFrom_escaped pos digitsNonempty head (by rw [split]) _ _ rfl] at read
  cases number : hexNumber? (after.take 4) with
  | none =>
    rw [number] at read
    cases congrArg Unescaped.outcome read
  | some code =>
    simp only [number, Option.some_or, Option.elim_some, Option.isSome_some, if_true] at read
    split at read
    · cases congrArg Unescaped.outcome read
    rename_i nonneg
    cases outcome : (unescapeFrom [] (some code) .plain (after.drop 4)).outcome with
    | error f =>
      rw [Unescaped.after, outcome] at read
      cases congrArg Unescaped.outcome read
    | ok later =>
      have valid := congrArg Unescaped.invalid read
      have same := congrArg Unescaped.outcome read
      rw [Unescaped.after, outcome] at same
      refine ⟨after.take 4, after.drop 4, code.toNat, later, split.symm, by rw [split], ?_, ?_,
        decodes_of_unescapeFrom outcome valid⟩
      · rw [Int.toNat_of_nonneg (Int.not_lt.1 nonneg), number]
      · simpa using (Except.ok.inj same).symm

/-! ## An escape that leaves the text as it is -/

/-- Every backslash is followed by a `u`. -/
def Marked (text : Text) : Prop := ∀ front back, text = front ++ '\\'.toNat :: back → ∃ rest, back = 'u'.toNat :: rest

theorem Marked.of_append (marked : Marked (front ++ text)) : Marked text :=
  fun before back split => marked (front ++ before) back (by rw [split, append_assoc])

theorem Marked.append (isFront : Marked front) (isBack : Marked back) : Marked (front ++ back) := by
  intro before after split
  rcases append_eq_append_cons split with ⟨middle, front_eq, rfl⟩ | ⟨middle, -, back_eq⟩
  · obtain ⟨rest, rfl⟩ := isFront before middle front_eq
    exact ⟨rest ++ back, rfl⟩
  · exact isBack middle after back_eq

theorem marked_of_notMem (clean : '\\'.toNat ∉ text) : Marked text := by
  rintro front back rfl
  exact absurd (mem_append_right _ mem_cons_self) clean

theorem marked_escape (pos : 0 < us) {digits : Text} (none_inside : '\\'.toNat ∉ digits) :
    Marked ('\\'.toNat :: (copies us 'u' ++ digits)) := by
  have later := notMem_copies (by decide) none_inside us
  intro front back split
  cases front with
  | nil =>
    obtain ⟨us, rfl⟩ := Nat.exists_eq_succ_of_ne_zero (Nat.ne_of_gt pos)
    injection split with _ split
    exact ⟨_, split.symm⟩
  | cons c front =>
    injection split with _ split
    rw [split] at later
    exact absurd (mem_append_right _ mem_cons_self) later

/-- What is copied while the text still has to catch up by `ahead` holds no backslash. Every character that is copied
goes from the front of `ahead` to its end, and every backslash of `ahead` comes before a `u`. -/
theorem Copied.clean (copied : Copied since) (marked : Marked ahead) (nonempty : ahead ≠ []) {x y : Text}
    (turned : since ++ x = ahead ++ (since ++ y)) : '\\'.toNat ∉ since := by
  induction copied generalizing ahead with
  | nil => simp
  | @char c rest ne _ ih =>
    obtain ⟨d, ahead, rfl⟩ := exists_cons_of_ne_nil nonempty
    obtain ⟨rfl, turned⟩ := List.cons.inj turned
    have turned : rest ++ x = (ahead ++ [c]) ++ (rest ++ y) := by simpa using turned
    have later : Marked ahead := Marked.of_append (show Marked ([c] ++ ahead) from marked)
    have marked : Marked (ahead ++ [c]) := later.append (marked_of_notMem (by simpa using ne.symm))
    rw [mem_cons, not_or]
    exact ⟨ne.symm, ih marked (by simp) turned⟩
  | @pair c rest ne _ _ =>
    obtain ⟨d, ahead, rfl⟩ := exists_cons_of_ne_nil nonempty
    obtain ⟨rfl, later⟩ := List.cons.inj turned
    obtain ⟨more, rfl⟩ := marked [] ahead rfl
    exact absurd (List.cons.inj later).1 ne

/-- After an escape, a text that has to catch up by `ahead` with what is decoded of it ends inside a marker, without
another escape. -/
theorem Decodes.ahead_eq (decodes : Decodes text decoded) (decoded_eq : decoded = ahead ++ text)
    (marked : Marked ahead) (nonempty : ahead ≠ []) :
    '\\'.toNat ∉ ahead ∧ ∃ us, text = ahead ++ '\\'.toNat :: copies us 'u' := by
  induction decodes generalizing ahead with
  | last _ => exact absurd (self_eq_append_left.1 decoded_eq) nonempty
  | lone _ => exact absurd (self_eq_append_left.1 decoded_eq) nonempty
  | @cut since us copied pos =>
    obtain rfl := append_cancel_right decoded_eq
    exact ⟨copied.clean marked nonempty decoded_eq, us, rfl⟩
  | @escape since us digits n rest decoded copied pos number _ _ ih =>
    have clean := copied.clean marked nonempty decoded_eq
    -- the marker of the escape would still have to be caught up with
    have split : ahead ++ since ++ ('\\'.toNat :: (copies us 'u' ++ digits) ++ rest) = since ++ [n] ++ decoded := by
      simpa using decoded_eq.symm
    have long : (since ++ [n]).length ≤ (ahead ++ since).length := by
      have := length_pos_iff.2 nonempty
      simp only [length_append, length_singleton]
      omega
    obtain ⟨left, front_eq, behind⟩ := exists_split_of_le split long
    have leftMarked : Marked left := Marked.of_append (front_eq ▸ marked.append (marked_of_notMem clean))
    have again : '\\'.toNat ∉ left ++ '\\'.toNat :: (copies us 'u' ++ digits) :=
      (ih (by rw [← behind]; simp) (leftMarked.append (marked_escape pos (clean_of_hexNumber? number))) (by simp)).1
    exact absurd (by simp) again

/-- **A text with an escape** that is left as it is goes on, behind the backslash of the escape, with the other
characters of the escape, the same again, and a marker at its end. -/
theorem Decodes.unchanged_escape (copied : Copied since) (pos : 0 < us) (whole : after.head? ≠ some 'u'.toNat)
    (nonempty : after ≠ []) (text_eq : text = since ++ '\\'.toNat :: (copies us 'u' ++ after))
    (decodes : Decodes text text) :
    ∃ escape us', text = since ++ '\\'.toNat :: (escape ++ escape ++ '\\'.toNat :: copies us' 'u') ∧
      '/'.toNat ∉ escape := by
  have noHex_slash : Text.NoHex '/'.toNat := ⟨by decide, by decide, by decide⟩
  rw [text_eq] at decodes
  obtain ⟨digits, rest, n, later, rfl, -, number, decoded_eq, decodesLater⟩ :=
    decodes.of_marker copied pos whole nonempty
  obtain ⟨-, behind⟩ := List.cons.inj (append_cancel_left decoded_eq)
  have noSlash : '/'.toNat ∉ digits := fun mem => by cases number.symm.trans (hexNumber?_of_mem noHex_slash mem)
  have marked : Marked (copies us 'u' ++ digits) :=
    marked_of_notMem (notMem_copies (by decide) (clean_of_hexNumber? number) us)
  have some_left : copies us 'u' ++ digits ≠ [] := by
    obtain ⟨c, more, rfl, -⟩ := exists_cons_of_hexNumber? number
    simp
  obtain ⟨-, us', rest_eq⟩ := decodesLater.ahead_eq (by rw [← behind, append_assoc]) marked some_left
  refine ⟨copies us 'u' ++ digits, us', ?_, notMem_copies (by decide) noSlash us⟩
  rw [text_eq, append_assoc (copies us 'u' ++ digits), ← rest_eq, append_assoc (copies us 'u')]

/-- **Text without backslashes** can be put behind copied characters, and all is left as it is still. -/
theorem Decodes.insert (decodes : Decodes (front ++ back) (front ++ back)) (copied : Copied front)
    (nonempty : front ≠ []) (clean : '\\'.toNat ∉ between) :
    Decodes (front ++ (between ++ back)) (front ++ (between ++ back)) := by
  obtain ⟨since, tail, rfl, isCopied, ends⟩ := exists_segment back
  have before : Copied (front ++ since) := copied.append isCopied
  have inserted : Copied (front ++ (between ++ since)) := copied.append ((copied_of_notMem clean).append isCopied)
  rcases ends with rfl | rfl | ⟨us, after, rfl, pos, whole⟩
  · simpa using Decodes.last inserted
  · simpa using Decodes.lone inserted
  rw [← append_assoc] at decodes
  cases after with
  | nil =>
    -- the front would be written twice
    rw [append_nil] at decodes
    have twice := self_eq_append_left.1 (decodes.unique (.cut before pos))
    exact absurd (append_eq_nil_iff.1 twice).1 nonempty
  | cons c after =>
    obtain ⟨digits, rest, n, later, split, four, number, decoded_eq, decodesLater⟩ :=
      decodes.of_marker before pos whole (cons_ne_nil c after)
    have again := Decodes.escape inserted pos number four decodesLater
    rw [← append_cancel_left decoded_eq, ← split] at again
    simpa using again

end JavaSource.Lexer
