import JavaSource.Proofs.Parser.Modifiers

/-!
# What a reading gives

Where a reading gives a result, every step of it did. `Outcome.Gives` says what a reading gives and which tokens
it leaves, and the lemmas here lead from what a routine gives back to what its parts gave, down to the tokens that
were taken. A repetition gives a `Series` of items.
-/

namespace JavaSource.Grammar

open List Outcome

/-- The reading gives a result and leaves some tokens. -/
structure Outcome.Gives {α : Type} (o : Outcome α) (x : α) (rest : List Token) : Prop where
  result : o.result = .ok x
  ahead : o.ahead = rest

section

variable {follow : Reader} {α β : Type} {ahead rest : List Token}

variable {b : β} {o : Outcome α} {f : α → List Token → Outcome β} {routine : Routine α} {words : List Text}
  {item : Routine (β × Bool)} {xs : List β}

theorem gives_andThen (gives : (o.andThen f).Gives b rest) : ∃ a mid, o.Gives a mid ∧ (f a mid).Gives b rest := by
  obtain ⟨ok, left⟩ := gives
  obtain ⟨a, first, second, -⟩ := ok_of_andThen ok
  rw [andThen_ok first] at left
  exact ⟨a, _, ⟨first, rfl⟩, ⟨second, left⟩⟩

variable {a : α} {mid : List Token}

theorem gives_of_andThen
    (first : o.Gives a mid) (second : (f a mid).Gives b rest) : (o.andThen f).Gives b rest := by
  obtain ⟨ok, rfl⟩ := first
  rw [andThen_ok ok]
  exact ⟨second.result, second.ahead⟩

variable {failure : ParseFailure}

/-- One reading after the other fails where the first one does, or where the second one does. -/
theorem Outcome.andThen_error_iff : (o.andThen f).result = .error failure ↔
      o.result = .error failure ∨ ∃ a rest, o.Gives a rest ∧ (f a rest).result = .error failure := by
  cases result : o.result with
  | error failure' =>
    rw [andThen_error result]
    refine ⟨fun failed => ?_, ?_⟩
    · cases failed
      exact .inl rfl
    · rintro (failed | ⟨a, rest, gives, -⟩)
      · cases failed
        rfl
      · cases result.symm.trans gives.result
  | ok a =>
    rw [andThen_ok result]
    refine ⟨fun failed => .inr ⟨a, _, ⟨result, rfl⟩, failed⟩, ?_⟩
    rintro (failed | ⟨a', rest, gives, failed⟩)
    · cases failed
    · cases result.symm.trans gives.result
      rwa [gives.ahead]

/-- A second reading that does not fail leaves the failures to the first. -/
theorem Outcome.andThen_error_iff_left
    (fine : ∀ a rest, (f a rest).result ≠ .error failure) :
    (o.andThen f).result = .error failure ↔ o.result = .error failure := by
  rw [andThen_error_iff]
  exact ⟨fun failed => failed.resolve_right fun ⟨a, rest, _, later⟩ => fine a rest later, .inl⟩

theorem gives_bind {f : α → Routine β} (gives : ((routine >>= f).read follow ahead).Gives b rest) :
    ∃ a mid, (routine.read follow ahead).Gives a mid ∧ ((f a).read follow mid).Gives b rest := by
  rw [Routine.read_monad_bind] at gives
  exact gives_andThen gives

theorem gives_of_bind {f : α → Routine β}
    (first : (routine.read follow ahead).Gives a mid) (second : ((f a).read follow mid).Gives b rest) :
    ((routine >>= f).read follow ahead).Gives b rest := by
  rw [Routine.read_monad_bind]
  exact gives_of_andThen first second

theorem gives_pure {b : α} (gives : ((pure a : Routine α).read follow ahead).Gives b rest) :
    b = a ∧ rest = ahead := by
  obtain ⟨ok, left⟩ := gives
  cases ok
  exact ⟨rfl, left.symm⟩

/-- A routine whose value is put into another one. -/
theorem gives_made {g : α → β} (gives : ((routine >>= fun x => pure (g x)).read follow ahead).Gives b rest) :
    ∃ a, b = g a ∧ (routine.read follow ahead).Gives a rest := by
  obtain ⟨a, _, first, done⟩ := gives_bind gives
  obtain ⟨rfl, rfl⟩ := gives_pure done
  exact ⟨a, rfl, first⟩

theorem gives_discard {u : PUnit} (gives : ((discard routine).read follow ahead).Gives u rest) :
    ∃ a, (routine.read follow ahead).Gives a rest := by
  obtain ⟨a, -, first⟩ := gives_made gives
  exact ⟨a, first⟩

theorem gives_parse {r : Rule} {x : r.Result} (gives : ((parse r).read follow ahead).Gives x rest) :
    (follow r ahead).Gives x rest := by
  rwa [read_parse] at gives

/-- A rule that gives a value is one level deep at least. -/
theorem gives_rule {r : Rule} {n : Nat} {x : r.Result} (gives : (r.readWithin n ahead).Gives x rest) :
    ∃ m, n = m + 1 ∧ (r.body.read (Rule.readWithin m) ahead).Gives x rest := by
  cases n with
  | zero => cases gives.result
  | succ m => exact ⟨m, rfl, gives⟩

theorem gives_peek {t : Option Token} (gives : (peek.read follow ahead).Gives t rest) :
    t = ahead[0]? ∧ rest = ahead := by
  obtain ⟨ok, left⟩ := gives
  cases ok
  exact ⟨rfl, left.symm⟩

variable {t : Token}

theorem gives_take (gives : (take.read follow ahead).Gives t rest) : ahead = t :: rest := by
  obtain ⟨ok, left⟩ := gives
  cases ahead with
  | nil => cases ok
  | cons u ahead =>
    cases ok
    rw [← left]
    rfl

variable {p : Pattern}

theorem gives_wouldAccept {b : Bool} (gives : ((wouldAccept [p]).read follow ahead).Gives b rest) :
    b = p.fits ahead[0]? ∧ rest = ahead := by
  rw [read_wouldAccept_one] at gives
  obtain ⟨ok, left⟩ := gives
  cases ok
  exact ⟨rfl, left.symm⟩

/-! ## Words -/

/-- The tokens ahead start with tokens of the given values, and the others follow. -/
def Spells (words : List Text) (ahead rest : List Token) : Prop :=
  ∃ used, ahead = used ++ rest ∧ used.map Token.value = words

namespace Spells

variable {word : Text} {words later : List Text} {mid : List Token}

theorem nil (rest : List Token) : Spells [] rest rest := ⟨[], rfl, rfl⟩

theorem cons (value : t.value = word) (spells : Spells words ahead rest) :
    Spells (word :: words) (t :: ahead) rest := by
  obtain ⟨used, rfl, rfl⟩ := spells
  exact ⟨t :: used, rfl, by rw [map_cons, value]⟩

theorem one (value : t.value = word) : Spells [word] (t :: rest) rest := cons value (nil rest)

theorem append (first : Spells words ahead mid) (second : Spells later mid rest) :
    Spells (words ++ later) ahead rest := by
  obtain ⟨used, rfl, rfl⟩ := first
  obtain ⟨used', rfl, rfl⟩ := second
  exact ⟨used ++ used', by rw [append_assoc], map_append⟩

theorem of_append (spells : Spells (words ++ later) ahead rest) :
    ∃ mid, Spells words ahead mid ∧ Spells later mid rest := by
  obtain ⟨used, rfl, same⟩ := spells
  obtain ⟨first, second, rfl, rfl, rfl⟩ := map_eq_append_iff.1 same
  exact ⟨second ++ rest, ⟨first, by rw [append_assoc], rfl⟩, ⟨second, rfl, rfl⟩⟩

theorem of_cons (spells : Spells (word :: words) ahead rest) :
    ∃ t later, ahead = t :: later ∧ t.value = word ∧ Spells words later rest := by
  obtain ⟨used, rfl, same⟩ := spells
  obtain ⟨t, used, rfl, rfl, rfl⟩ := map_eq_cons_iff.1 same
  exact ⟨t, used ++ rest, rfl, rfl, used, rfl, rfl⟩

theorem eq_of_nil (spells : Spells [] ahead rest) : ahead = rest := by
  obtain ⟨used, rfl, none⟩ := spells
  rw [map_eq_nil_iff.1 none, nil_append]

theorem suffix (spells : Spells words ahead rest) : rest <:+ ahead := by
  obtain ⟨used, rfl, -⟩ := spells
  exact suffix_append used rest

theorem length_eq (spells : Spells words ahead rest) : ahead.length = words.length + rest.length := by
  obtain ⟨used, rfl, rfl⟩ := spells
  rw [length_append, length_map]

end Spells

/-- Whether the tokens ahead start with tokens of the given values. -/
def startsWith (words : List Text) (ahead : List Token) : Bool := words.isPrefixOf (ahead.map Token.value)

theorem spells_of_startsWith (starts : startsWith words ahead = true) :
    Spells words ahead (ahead.drop words.length) := by
  have values : words = (ahead.map Token.value).take words.length :=
    prefix_iff_eq_take.1 (List.isPrefixOf_iff_prefix.1 starts)
  refine ⟨ahead.take words.length, (take_append_drop _ _).symm, ?_⟩
  rw [map_take, ← values]

theorem Spells.startsWith (spells : Spells words ahead rest) :
    startsWith words ahead = true ∧ ahead.drop words.length = rest := by
  obtain ⟨used, rfl, rfl⟩ := spells
  rw [Grammar.startsWith, map_append, length_map, drop_left]
  exact ⟨List.isPrefixOf_iff_prefix.2 (prefix_append _ _), rfl⟩

theorem fitAll_words (words : List Text) (ahead : List Token) :
    Pattern.fitAll (words.map .word) ahead = startsWith words ahead := by
  induction words generalizing ahead with
  | nil => rfl
  | cons word words ih =>
    cases ahead with
    | nil => rfl
    | cons t ahead =>
      have first : Pattern.fits (some t) (.word word) = (word == t.value) := by
        rw [Pattern.fits, valueOf, Option.map_some, Option.some_beq_some, BEq.comm]
      rw [map_cons, Pattern.fitAll, getElem?_cons_zero, first, tail_cons, ih]
      rfl

theorem read_takeMany (spells : Spells words ahead rest) :
    (takeMany words.length).read follow ahead = .ok () rest := by
  induction words generalizing ahead with
  | nil =>
    rw [spells.eq_of_nil]
    rfl
  | cons word words ih =>
    obtain ⟨t, later, rfl, -, spells⟩ := spells.of_cons
    exact ih spells

/-- Words are taken all together or not at all. -/
theorem read_tryAccept_words {words : List Text} (nonempty : words ≠ []) (ahead : List Token) :
    (tryAccept (words.map .word)).read follow ahead =
      { result := .ok (startsWith words ahead),
        ahead := if startsWith words ahead then ahead.drop words.length else ahead } := by
  rw [tryAccept, Routine.read_monad_bind, read_wouldAccept (by simpa using nonempty), fitAll_words,
    andThen_pure]
  cases starts : startsWith words ahead with
  | false => rfl
  | true =>
    rw [if_pos rfl, length_map, Routine.read_bind_ok (read_takeMany (spells_of_startsWith starts)), if_pos rfl]
    rfl

theorem gives_tryAccept {words : List Text} (nonempty : words ≠ []) {b : Bool}
    (gives : ((tryAccept (words.map .word)).read follow ahead).Gives b rest) :
    (b = true ∧ Spells words ahead rest) ∨ (b = false ∧ rest = ahead ∧ startsWith words ahead = false) := by
  rw [read_tryAccept_words nonempty] at gives
  obtain ⟨ok, left⟩ := gives
  cases starts : startsWith words ahead with
  | true =>
    rw [starts] at ok left
    cases ok
    cases left
    exact .inl ⟨rfl, spells_of_startsWith starts⟩
  | false =>
    rw [starts] at ok left
    cases ok
    cases left
    exact .inr ⟨rfl, rfl, rfl⟩

/-- Words that are there are taken. -/
theorem Spells.read_tryAccept (spells : Spells words ahead rest) (nonempty : words ≠ []) :
    (tryAccept (words.map .word)).read follow ahead = .ok true rest := by
  rw [read_tryAccept_words nonempty, spells.startsWith.1, spells.startsWith.2]
  rfl

theorem Spells.read_acceptFrom (spells : Spells words ahead rest) (value : Text) :
    (acceptFrom value (words.map .word)).read follow ahead = .ok (words.getLastD value) rest := by
  induction words generalizing ahead value with
  | nil =>
    rw [spells.eq_of_nil]
    rfl
  | cons word words ih =>
    obtain ⟨t, later, rfl, value_eq, spells⟩ := spells.of_cons
    have fits : Pattern.fits (some t) (.word word) = true := by
      rw [Pattern.fits, valueOf, Option.map_some, value_eq, beq_self_eq_true]
    change Routine.read follow (if Pattern.fits (some t) (.word word) = true then _ else _) later = _
    rw [if_pos fits, ih spells, value_eq, getLastD_cons]

/-- Words that are there can be asked for. -/
theorem Spells.read_accept (spells : Spells words ahead rest) (nonempty : words ≠ []) :
    (accept (words.map .word)).read follow ahead = .ok (words.getLastD []) rest := by
  rw [accept, if_neg (by simpa using nonempty)]
  exact spells.read_acceptFrom []

variable {value : Text}

theorem gives_acceptFrom {last : Text}
    (gives : ((acceptFrom value (words.map .word)).read follow ahead).Gives last rest) : Spells words ahead rest := by
  induction words generalizing ahead value with
  | nil =>
    obtain ⟨-, rfl⟩ := gives_pure gives
    exact .nil _
  | cons word words ih =>
    obtain ⟨t, later, taken, goes⟩ := gives_bind gives
    cases gives_take taken
    cases fits : Pattern.fits (some t) (.word word) with
    | true =>
      rw [fits, if_pos rfl] at goes
      exact .cons (Option.some.inj (beq_iff_eq.1 fits)) (ih goes)
    | false =>
      rw [fits] at goes
      cases goes.result

/-- Words that are asked for are there. -/
theorem gives_accept_words {words : List Text} {last : Text}
    (gives : ((accept (words.map .word)).read follow ahead).Gives last rest) : Spells words ahead rest := by
  rw [accept] at gives
  split at gives
  · cases gives.result
  · exact gives_acceptFrom gives

theorem gives_accept (gives : ((accept [p]).read follow ahead).Gives value rest) :
    ∃ t, ahead = t :: rest ∧ p.fits (some t) = true ∧ value = t.value := by
  obtain ⟨ok, left⟩ := gives
  have fits := fits_of_accept ok
  cases ahead with
  | nil => cases ok
  | cons t later =>
    rw [getElem?_cons_zero] at fits
    rw [read_accept_cons, if_pos fits] at ok left
    cases ok
    exact ⟨t, by rw [← left], fits, rfl⟩

/-- Words are taken, or something else is done. -/
theorem gives_ifTaken {x : α} {yes no : Routine α} (words : List Text) (nonempty : words ≠ [])
    (gives : ((tryAccept (words.map .word) >>= fun taken => if taken then yes else no).read follow ahead).Gives x rest) :
    (∃ mid, Spells words ahead mid ∧ (yes.read follow mid).Gives x rest) ∨
      (startsWith words ahead = false ∧ (no.read follow ahead).Gives x rest) := by
  obtain ⟨taken, mid, first, goes⟩ := gives_bind gives
  rcases gives_tryAccept nonempty first with ⟨rfl, spells⟩ | ⟨rfl, rfl, apart⟩
  · exact .inl ⟨mid, spells, goes⟩
  · exact .inr ⟨apart, goes⟩

/-- Words are there, or something else is done. -/
theorem gives_ifThere {x : α} {yes no : Routine α} (words : List Text) (nonempty : words ≠ [])
    (gives : ((wouldAccept (words.map .word) >>= fun there => if there then yes else no).read follow ahead).Gives x
      rest) : (startsWith words ahead = true ∧ (yes.read follow ahead).Gives x rest) ∨
      (startsWith words ahead = false ∧ (no.read follow ahead).Gives x rest) := by
  rw [Routine.read_monad_bind, read_wouldAccept (by simpa using nonempty), fitAll_words, andThen_pure] at gives
  cases there : startsWith words ahead with
  | true =>
    rw [there, if_pos rfl] at gives
    exact .inl ⟨rfl, gives⟩
  | false =>
    rw [there, if_neg Bool.false_ne_true] at gives
    exact .inr ⟨rfl, gives⟩

/-- Words that have to be there are taken. -/
theorem gives_words {f : PUnit → Routine β} (words : List Text)
    (gives : ((discard (accept (words.map .word)) >>= f).read follow ahead).Gives b rest) :
    ∃ mid, Spells words ahead mid ∧ ((f ⟨⟩).read follow mid).Gives b rest := by
  obtain ⟨_, mid, first, next⟩ := gives_bind gives
  obtain ⟨_, accepted⟩ := gives_discard first
  exact ⟨mid, gives_accept_words accepted, next⟩

theorem gives_accepted {f : PUnit → Routine β} (gives : ((discard (accept [p]) >>= f).read follow ahead).Gives b rest) :
    ∃ t mid, ahead = t :: mid ∧ p.fits (some t) = true ∧ ((f ⟨⟩).read follow mid).Gives b rest := by
  obtain ⟨_, mid, first, next⟩ := gives_bind gives
  obtain ⟨_, accepted⟩ := gives_discard first
  obtain ⟨t, rfl, fits, -⟩ := gives_accept accepted
  exact ⟨t, mid, rfl, fits, next⟩

/-! ## Repetition -/

/-- `Series item ahead xs rest`: from `ahead` on, the items `xs` come one after the other, up to `rest`, and the
last one says that it is the last. There is one at least. -/
inductive Series (item : List Token → β × Bool → List Token → Prop) : List Token → List β → List Token → Prop where
  | last {ahead rest : List Token} {x : β} : item ahead (x, false) rest → Series item ahead [x] rest
  | more {ahead later rest : List Token} {x : β} {xs : List β} : item ahead (x, true) later →
    Series item later xs rest → Series item ahead (x :: xs) rest

namespace Series

variable {item : List Token → β × Bool → List Token → Prop} {xs : List β}

theorem mono {item' : List Token → β × Bool → List Token → Prop} (series : Series item ahead xs rest)
    (imp : ∀ {ahead x rest}, item ahead x rest → item' ahead x rest) : Series item' ahead xs rest := by
  induction series with
  | last here => exact .last (imp here)
  | more here _ ih => exact .more (imp here) ih

theorem length_le (series : Series item ahead xs rest)
    (shorter : ∀ {ahead x rest}, item ahead x rest → rest.length < ahead.length) :
    xs.length + rest.length ≤ ahead.length := by
  induction series with
  | last here =>
    have less := shorter here
    rw [length_singleton]
    omega
  | more here _ ih =>
    have less := shorter here
    rw [length_cons]
    omega

end Series

variable {step : List β → List Token → Outcome (List β × Bool)} {n : Nat}

/-- Turns that each put one item in front of those before. The induction is on the number of turns. -/
theorem gives_repeated (item : List Token → β × Bool → List Token → Prop)
    (steps : ∀ {acc ahead acc' more rest}, (step acc ahead).Gives (acc', more) rest →
      ∃ x, acc' = x :: acc ∧ item ahead (x, more) rest)
    {acc ys : List β} (gives : (repeated step n acc ahead).Gives ys rest) :
    ∃ xs, ys = xs.reverse ++ acc ∧ Series item ahead xs rest := by
  induction n generalizing acc ahead with
  | zero => cases gives.result
  | succ n ih =>
    obtain ⟨⟨acc', more⟩, later, first, gives⟩ := gives_andThen gives
    obtain ⟨x, rfl, here⟩ := steps first
    cases more with
    | true =>
      obtain ⟨xs, rfl, series⟩ := ih gives
      exact ⟨x :: xs, by simp, .more here series⟩
    | false =>
      obtain ⟨ok, left⟩ := gives
      cases ok
      cases left
      exact ⟨[x], rfl, .last here⟩

/-- What a repetition gives came item by item. -/
theorem gives_many (gives : ((many item).read follow ahead).Gives xs rest) :
    Series (fun ahead x rest => (item.read follow ahead).Gives x rest) ahead xs rest := by
  rw [many, Routine.read] at gives
  obtain ⟨ys, later, repeats, done⟩ := gives_andThen gives
  obtain ⟨rfl, rfl⟩ := gives_pure done
  have turns := fun steps => gives_repeated (fun ahead x rest => (item.read follow ahead).Gives x rest) steps
    repeats
  obtain ⟨xs, rfl, series⟩ := turns fun gives => by
    obtain ⟨⟨x, more⟩, later, first, done⟩ := gives_bind gives
    obtain ⟨same, rfl⟩ := gives_pure done
    cases same
    exact ⟨x, rfl, first⟩
  rwa [append_nil, reverse_reverse]

theorem repeated_series {item : List Token → β × Bool → List Token → Prop}
    (steps : ∀ {acc ahead x more rest}, item ahead (x, more) rest →
      step acc ahead = .ok (x :: acc, more) rest)
    (series : Series item ahead xs rest) (enough : xs.length ≤ n) (acc : List β) :
    repeated step n acc ahead = .ok (xs.reverse ++ acc) rest := by
  induction series generalizing n acc with
  | last here =>
    obtain ⟨m, rfl⟩ : ∃ m, n = m + 1 := ⟨n - 1, by simp at enough; omega⟩
    exact repeated_done (steps here) m
  | @more _ _ _ x xs here _ ih =>
    obtain ⟨m, rfl⟩ : ∃ m, n = m + 1 := ⟨n - 1, by simp at enough; omega⟩
    rw [repeated_more (steps here) m, ih (Nat.le_of_succ_le_succ enough), reverse_cons,
      append_assoc, singleton_append]

/-- Items one after the other are what a repetition reads. There are turns enough for as many items as there are
tokens. -/
theorem Series.read_many
    (series : Series (fun ahead x rest => item.read follow ahead = .ok x rest)
      ahead xs rest) (enough : xs.length ≤ ahead.length + 2) :
    (many item).read follow ahead = .ok xs rest := by
  rw [many, Routine.read, repeated_series _ series enough, andThen_pure, append_nil, Routine.read,
    reverse_reverse]
  intro acc ahead x more rest here
  rw [Routine.read_bind_ok here]
  rfl

/-- A repetition gives items one after the other, and only that, where each takes a token. -/
theorem gives_many_iff {holds : List Token → β × Bool → List Token → Prop}
    (gives : ∀ {ahead x rest}, (item.read follow ahead).Gives x rest → holds ahead x rest)
    (reads : ∀ {ahead x rest}, holds ahead x rest → item.read follow ahead = .ok x rest)
    (shorter : ∀ {ahead x rest}, holds ahead x rest → rest.length < ahead.length) :
    ((many item).read follow ahead).Gives xs rest ↔ Series holds ahead xs rest := by
  refine ⟨fun many => (gives_many many).mono gives, fun series => ?_⟩
  have enough := series.length_le shorter
  rw [Series.read_many (series.mono reads) (by omega)]
  exact ⟨rfl, rfl⟩

end

end JavaSource.Grammar
