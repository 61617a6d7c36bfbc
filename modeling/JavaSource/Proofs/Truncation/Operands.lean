import JavaSource.Proofs.Parser.Given
import JavaSource.Proofs.Parser.Steps

/-!
# How operands end

Behind an operand the parser asks whether a selector follows, and at the end of the tokens that question is a failure
of its own kind. It is asked behind a token with which an operand may end, and nowhere else: `Routine.Leads` is what a
routine leads to if it gives a value, and `Rule.closes` and `Rule.keeps` tell what the rules lead to of which operands
consist. `Rule.endInText_of_readWithin` draws the conclusion for every rule.
-/

namespace JavaSource.Grammar

open List Outcome Pattern

/-! ## Last tokens -/

def closingWords : List Text := Vocabulary.texts [")", "]", "\x7d", "this", "class"]

def closingClasses : List TokenClass := [.identifier, .literal, .basicType]

def closesOperand (t : Token) : Bool :=
  closingWords.contains t.value || closingClasses.any fun c => isOf (some t) c

/-- The last one of the tokens may end an operand. -/
def EndsOperand (tokens : List Token) : Prop := ∃ t, tokens.getLast? = some t ∧ closesOperand t = true

theorem EndsOperand.of_suffix {later tokens : List Token} (ends : EndsOperand later) (suffix : later <:+ tokens) :
    EndsOperand tokens := by
  obtain ⟨t, last, closes⟩ := ends
  obtain ⟨front, rfl⟩ := suffix
  exact ⟨t, by rw [getLast?_append, last]; rfl, closes⟩

/-- If no tokens are left, the last one that was there may end an operand. -/
def Closed (start ahead : List Token) : Prop := ahead = [] → EndsOperand start

/-- Whether all tokens that fit the pattern may end an operand. -/
def Pattern.closes : Pattern → Bool
  | .word value => closingWords.contains value
  | .cls c => closingClasses.contains c
  | .any => false

variable {p : Pattern} {ahead start : List Token}

variable {t : Token}

theorem Pattern.closesOperand (closes : p.closes = true) (fits : p.fits (some t) = true) :
    closesOperand t = true := by
  cases p with
  | word value =>
    obtain rfl : t.value = value := Option.some.inj (eq_of_beq fits)
    exact Bool.or_eq_true_iff.2 (.inl closes)
  | cls c => exact Bool.or_eq_true_iff.2 (.inr (any_eq_true.2 ⟨c, contains_iff_mem.1 closes, fits⟩))
  | any => cases closes

theorem closed_of_fits (closes : p.closes = true)
    (fits : p.fits (some t) = true) (suffix : t :: ahead <:+ start) : Closed start ahead := by
  rintro rfl
  exact EndsOperand.of_suffix ⟨t, rfl, p.closesOperand closes fits⟩ suffix

theorem Pattern.closes_unfit (closes : p.closes = true) : p.fits none = false := by
  cases p with
  | word value => rfl
  | cls c => exact (by decide : ∀ c ∈ closingClasses, isOf none c = false) c (contains_iff_mem.1 closes)
  | any => cases closes

theorem closed_of_ne_nil (some_left : ahead ≠ []) : Closed start ahead :=
  fun none_left => absurd none_left some_left

/-- Where a word is ahead, there are tokens ahead. -/
theorem ne_nil_of_fits {value : Text} (fits : Pattern.fits ahead[0]? (.word value) = true) : ahead ≠ [] := by
  rintro rfl
  cases fits

theorem closed_of_fitAll {patterns : List Pattern} (closes : patterns.getLast?.any Pattern.closes = true)
    (fits : fitAll patterns ahead = true) (suffix : ahead <:+ start) :
    Closed start (ahead.drop patterns.length) := by
  induction patterns generalizing ahead with
  | nil => cases closes
  | cons p patterns ih =>
    obtain ⟨first, later⟩ := Bool.and_eq_true_iff.1 fits
    cases patterns with
    | nil =>
      cases ahead with
      | nil => cases first.symm.trans (p.closes_unfit closes)
      | cons t ahead => exact closed_of_fits closes first suffix
    | cons q patterns =>
      rw [length_cons, ← drop_tail]
      exact ih closes later ((tail_suffix ahead).trans suffix)

/-! ## What routines lead to -/

/-- Where the tokens ahead satisfy `P` and the routine gives a value, that value and the tokens behind satisfy `Q`. All
of them are the last ones of the tokens `start`. -/
def Routine.Leads (follow : Reader) (start : List Token) {α : Type}
    (routine : Routine α) (P : List Token → Prop) (Q : α → List Token → Prop) : Prop :=
  ∀ ahead a rest, ahead <:+ start → P ahead → (routine.read follow ahead).Gives a rest → Q a rest

/-- Where the tokens ahead satisfy `P` and the routine gives a value, an operand may have ended behind them. -/
abbrev Routine.Closes (follow : Reader) (start : List Token) {α : Type} (routine : Routine α)
    (P : List Token → Prop) : Prop :=
  routine.Leads follow start P fun _ => Closed start

variable {routine : Routine α} {n : Nat}

section

variable {follow : Reader} {start : List Token} {α β σ : Type}
  {P : List Token → Prop} {Q : α → List Token → Prop}

theorem leads_any (routine : Routine α) : routine.Leads follow start P fun _ _ => True := by
  intro _ _ _ _ _ _
  trivial

theorem leads_pure {a : α} (holds : ∀ ahead, P ahead → Q a ahead) : (pure a : Routine α).Leads follow start P Q := by
  intro ahead b rest _ here gives
  obtain ⟨rfl, rfl⟩ := gives_pure gives
  exact holds _ here

theorem leads_illegal (description : Text) : (illegal description : Routine α).Leads follow start P Q := by
  intro _ _ _ _ _ gives
  cases gives.result

variable {no yes : Routine α} {R I : List Token → Prop} {patterns : List Pattern} {p : Pattern}

theorem leads_ite {c : Prop} [Decidable c] (isYes : yes.Leads follow start P Q)
    (isNo : no.Leads follow start P Q) : (if c then yes else no).Leads follow start P Q := by
  split
  · exact isYes
  · exact isNo

theorem leads_discard (first : routine.Leads follow start P fun _ => R) :
    (discard routine).Leads follow start P fun _ => R := by
  intro ahead _ rest suffix here gives
  obtain ⟨a, gives⟩ := gives_discard gives
  exact first ahead a rest suffix here gives

theorem leads_acceptFrom (closes : patterns.getLast?.any Pattern.closes = true) (value : Text) :
    (acceptFrom value patterns).Closes follow start P := by
  induction patterns generalizing value P with
  | nil => cases closes
  | cons p patterns ih =>
    intro ahead last rest suffix _ gives
    obtain ⟨t, mid, taken, later⟩ := gives_bind gives
    obtain rfl := gives_take taken
    cases fits : p.fits (some t) with
    | false =>
      rw [fits] at later
      cases later.result
    | true =>
      rw [fits, if_pos rfl] at later
      cases patterns with
      | nil =>
        obtain ⟨-, rfl⟩ := gives_pure later
        exact closed_of_fits closes fits suffix
      | cons q patterns =>
        exact ih (P := fun _ => True) closes t.value mid last rest ((suffix_cons t mid).trans suffix) trivial later

theorem leads_accept (closes : patterns.getLast?.any Pattern.closes = true) :
    (accept patterns).Closes follow start P := by
  cases patterns with
  | nil => cases closes
  | cons p patterns => exact leads_acceptFrom closes []

theorem gives_takeMany {u : Unit} {rest : List Token}
    (gives : ((takeMany n).read follow ahead).Gives u rest) : rest = ahead.drop n := by
  induction n generalizing ahead with
  | zero => exact (gives_pure gives).2
  | succ n ih =>
    cases ahead with
    | nil => cases gives.result
    | cons t ahead => exact ih gives

/-- Turns that keep `I` as long as they go on, and lead to `R` where they stop. -/
theorem repeated_leads {step : σ → List Token → Outcome (σ × Bool)} (within : ∀ s ahead, (step s ahead).Within ahead)
    (turn : ∀ s ahead x rest, ahead <:+ start → I ahead → (step s ahead).Gives x rest →
      (x.2 = true → I rest) ∧ (x.2 = false → R rest))
    {n : Nat} {s s' : σ} {ahead rest : List Token} (suffix : ahead <:+ start) (here : I ahead)
    (gives : (repeated step n s ahead).Gives s' rest) : R rest := by
  induction n generalizing s ahead with
  | zero => cases gives.result
  | succ n ih =>
    obtain ⟨⟨s₁, more⟩, later, first, next⟩ := gives_andThen gives
    obtain ⟨goes, stops⟩ := turn _ _ _ _ suffix here first
    have left := (within s ahead).ahead
    rw [first.ahead] at left
    cases more with
    | true => exact ih (left.trans suffix) (goes rfl) next
    | false =>
      cases next.result
      cases next.ahead
      exact stops rfl

variable (within : ∀ r ahead, (follow r ahead).Within ahead)

include within

variable {routine : Routine β} {f : β → Routine α}

theorem leads_bind
    {R : β → List Token → Prop} (first : routine.Leads follow start P R)
    (second : ∀ b, (f b).Leads follow start (R b) Q) : (routine >>= f).Leads follow start P Q := by
  intro ahead a rest suffix here gives
  obtain ⟨b, mid, isFirst, isSecond⟩ := gives_bind gives
  have left := (routine.read_within within ahead).ahead
  rw [isFirst.ahead] at left
  exact second b mid a rest (left.trans suffix) (first ahead b mid suffix here isFirst) isSecond

/-- After any routine, nothing is known of the tokens ahead. -/
theorem leads_after
    (second : ∀ b, (f b).Leads follow start (fun _ => True) Q) : (routine >>= f).Leads follow start P Q :=
  leads_bind within (leads_any routine) second

theorem leads_peek {f : Option Token → Routine α}
    (second : ∀ t, (f t).Leads follow start (fun ahead => P ahead ∧ t = ahead[0]?) Q) :
    (peek >>= f).Leads follow start P Q := by
  refine leads_bind within (fun ahead t rest _ here gives => ?_) second
  obtain ⟨rfl, rfl⟩ := gives_peek gives
  exact ⟨here, rfl⟩

theorem leads_asked {f : Bool → Routine α} (second : ∀ fits, (f fits).Leads follow start
      (fun ahead => P ahead ∧ fits = fitAll (p :: patterns) ahead) Q) :
    (wouldAccept (p :: patterns) >>= f).Leads follow start P Q := by
  refine leads_bind within (fun ahead fits rest _ here gives => ?_) second
  rw [read_wouldAccept (cons_ne_nil p patterns)] at gives
  obtain ⟨ok, left⟩ := gives
  cases ok
  cases left
  exact ⟨here, rfl⟩

/-- Where the first pattern fits, there are tokens ahead. -/
theorem leads_either (unfit : p.fits none = false) (isYes : yes.Leads follow start (Closed start) Q)
    (isNo : no.Leads follow start P Q) :
    (wouldAccept (p :: patterns) >>= fun fits => if fits = true then yes else no).Leads follow start P Q := by
  refine leads_asked within fun fits ahead a rest suffix here gives => ?_
  cases fits with
  | true =>
    refine isYes ahead a rest suffix (closed_of_ne_nil ?_) gives
    rintro rfl
    cases unfit.symm.trans (Bool.and_eq_true_iff.1 here.2.symm).1
  | false => exact isNo ahead a rest suffix here.1 gives

/-- Patterns that are taken if they fit. -/
theorem leads_tried {f : Bool → Routine α}
    (taken : ∀ ahead, ahead <:+ start → fitAll (p :: patterns) ahead = true →
      R (ahead.drop (p :: patterns).length))
    (yes : (f true).Leads follow start R Q) (no : (f false).Leads follow start P Q) :
    (tryAccept (p :: patterns) >>= f).Leads follow start P Q := by
  refine leads_bind within (R := fun b rest => if b = true then R rest else P rest) ?_ ?_
  · intro ahead b rest suffix here gives
    obtain ⟨fits, mid, tested, later⟩ := gives_bind gives
    rw [read_wouldAccept (cons_ne_nil p patterns)] at tested
    obtain ⟨ok, rfl⟩ := tested
    cases ok
    split at later
    · rename_i fits
      obtain ⟨_, mid, many, done⟩ := gives_bind later
      obtain rfl := gives_takeMany many
      obtain ⟨rfl, rfl⟩ := gives_pure done
      rw [fits, if_pos rfl]
      exact taken ahead suffix fits
    · rename_i unfit
      obtain ⟨rfl, rfl⟩ := gives_pure later
      rw [if_neg unfit]
      exact here
  · intro b
    cases b with
    | true => exact yes
    | false => exact no

/-- Behind patterns that may end an operand, the operand may have ended. -/
theorem leads_closing (closes : (p :: patterns).getLast?.any Pattern.closes = true)
    (isYes : yes.Leads follow start (Closed start) Q) (isNo : no.Leads follow start P Q) :
    (tryAccept (p :: patterns) >>= fun fits => if fits = true then yes else no).Leads follow start P Q :=
  leads_tried within (fun _ suffix fits => closed_of_fitAll closes fits suffix) isYes isNo

/-- Behind other patterns nothing is known. -/
theorem leads_opening (isYes : yes.Leads follow start (fun _ => True) Q) (isNo : no.Leads follow start P Q) :
    (tryAccept (p :: patterns) >>= fun fits => if fits = true then yes else no).Leads follow start P Q :=
  leads_tried within (fun _ _ _ => trivial) isYes isNo

theorem leads_loop {s : σ} {body : σ → Routine (σ × Bool)} {k : σ → Routine α}
    (turn : ∀ s, (body s).Leads follow start I fun x rest => (x.2 = true → I rest) ∧ (x.2 = false → R rest))
    (done : ∀ s, (k s).Leads follow start R Q) : (Routine.loop s body k).Leads follow start I Q := by
  intro ahead a rest suffix here gives
  rw [Routine.read] at gives
  obtain ⟨s', mid, repeats, next⟩ := gives_andThen gives
  have body_within (s : σ) (ahead : List Token) := (body s).read_within within ahead
  have left := (repeated_within body_within (ahead.length + 2) s ahead).ahead
  rw [repeats.ahead] at left
  have holds := repeated_leads body_within (fun s ahead x rest => turn s ahead x rest) suffix here repeats
  exact done s' mid a rest (left.trans suffix) holds next

theorem leads_many {item : Routine (β × Bool)}
    (turn : item.Leads follow start I fun x rest => (x.2 = true → I rest) ∧ (x.2 = false → R rest)) :
    (many item).Leads follow start I fun _ => R :=
  leads_loop within (fun _ => leads_bind within turn fun _ => leads_pure fun _ => id) fun _ => leads_pure fun _ => id

/-- Items that keep what holds before them keep it all together. -/
theorem leads_whileTrue {test : Routine Bool} {item : Routine β}
    (turn : ∀ acc : List β, (test >>= fun more => if more = true then item >>= fun x => pure (x :: acc, true)
      else pure (acc, false)).Leads follow start P fun _ => P) :
    (whileTrue test item).Leads follow start P fun _ => P := by
  refine leads_loop within (R := P) (fun acc ahead x rest suffix here gives => ?_) fun _ => leads_pure fun _ => id
  have kept := turn acc ahead x rest suffix here gives
  exact ⟨fun _ => kept, fun _ => kept⟩

end

/-! ## The rules of operands -/

/-- The rules behind whose tokens an operand may have ended. -/
def Rule.closes (r : Rule) : Bool :=
  [.identifier, .basicType, .literal, .parExpression, .arguments, .classBody, .arrayInitializer, .superSuffix,
    .explicitGenericInvocationSuffix, .explicitGenericInvocation, .classCreatorRest, .creator, .innerCreator, .primary,
    .selector].contains r

/-- The rules that may take no token, and behind whose tokens an operand may have ended. -/
def Rule.keeps (r : Rule) : Bool := [.arrayDimension, .arrayCreatorRest, .identifierSuffix].contains r

/-- The rules do what is said of them. -/
structure Closing (follow : Reader) (start : List Token) : Prop where
  within : ∀ r ahead, (follow r ahead).Within ahead
  closes : ∀ r : Rule, r.closes = true → (parse r).Closes follow start (fun _ => True)
  keeps : ∀ r : Rule, r.keeps = true → (parse r).Closes follow start (Closed start)

section

variable {follow : Reader} {start : List Token} {P : List Token → Prop}

variable (closing : Closing follow start)

include closing

theorem Closing.parse {r : Rule} (closes : r.closes = true) : (parse r).Closes follow start P :=
  fun ahead a rest suffix _ => closing.closes r closes ahead a rest suffix trivial

variable {α : Type}

/-- What closes an operand, with the value made of it. -/
theorem leads_closed {β : Type} {routine : Routine α} {f : α → β} (first : routine.Closes follow start P) :
    (routine >>= fun x => pure (f x)).Closes follow start P :=
  leads_bind closing.within first fun _ => leads_pure fun _ => id

/-- Behind each item of an initializer its brace may be closed. -/
theorem initializerItem_closes (item : Tree) : (tryAccept ["\x7d"] >>= fun done => pure (item, !done)).Leads follow start
    (fun _ => True) fun x rest => (x.2 = true → True) ∧ (x.2 = false → Closed start rest) := by
  refine leads_tried closing.within (fun _ suffix fits => closed_of_fitAll (by decide) fits suffix) ?_ ?_
  · exact leads_pure fun _ closed => ⟨fun _ => trivial, fun _ => closed⟩
  · exact leads_pure fun _ _ => ⟨fun _ => trivial, Bool.noConfusion⟩

theorem sizedDimensionNext_keeps : Body.sizedDimensionNext.Closes follow start (Closed start) := by
  refine leads_either closing.within rfl ?_ (leads_pure fun _ => id)
  exact leads_asked closing.within fun _ => leads_pure fun _ here => here.1

/-- The word `super` before two colons is not the last token. -/
theorem super_closes {no : Routine α} {value : α}
    (isNo : no.Closes follow start P) : (wouldAccept ["super", "::"] >>= fun fits =>
      if fits = true then discard (accept ["super"]) >>= fun _ => pure value else no).Closes follow start P := by
  refine leads_asked closing.within fun fits => ?_
  cases fits with
  | false => exact fun ahead a rest suffix here => isNo ahead a rest suffix here.1
  | true =>
    rw [if_pos rfl]
    intro ahead a rest suffix here gives
    obtain ⟨t, mid, rfl, -, done⟩ := gives_accepted gives
    obtain ⟨-, rfl⟩ := gives_pure done
    have second := (Bool.and_eq_true_iff.1 here.2.symm).2
    exact closed_of_ne_nil (ne_nil_of_fits (Bool.and_eq_true_iff.1 second).1)

/-- A name that is there is taken. -/
theorem name_closes {f : Option Token → Token → Routine α} {no : Option Token → Routine α}
    (isYes : ∀ first t, (f first t).Closes follow start (Closed start)) (isNo : ∀ first, (no first).Closes follow start P) :
    (peek >>= fun first => if isOf first .identifier = true then take >>= f first else no first).Closes follow start P := by
  refine leads_peek closing.within fun first => ?_
  cases name : isOf first .identifier with
  | true =>
    rw [if_pos rfl]
    refine leads_bind closing.within (fun ahead t rest suffix here gives => ?_) (isYes first)
    obtain rfl := gives_take gives
    rw [here.2] at name
    exact closed_of_fits (p := .cls .identifier) rfl name suffix
  | false => exact fun ahead a rest suffix here => isNo first ahead a rest suffix here.1

-- Sealed, so that a lemma is tried by the head of the condition, without computing it.
seal Routine.Leads in
/-- **The bodies of the rules** do what is said of the rules, as far as the rules that they follow do. -/
theorem Closing.body {r : Rule} (allowed : r.closes = true ∨ r.keeps = true ∧ P = Closed start) :
    r.body.Closes follow start P := by
  cases r
  case identifier => exact (leads_accept rfl : (accept [.cls .identifier]).Leads follow start _ _)
  all_goals rcases allowed with closes | ⟨keeps, rfl⟩
  all_goals first | exact absurd closes (by decide) | exact absurd keeps (by decide) | skip
  all_goals
    repeat' first
      | with_reducible first
        | exact leads_pure fun _ => id
        | exact leads_illegal _
        | refine leads_ite ?_ ?_
        | exact closing.parse rfl
        | exact closing.keeps _ rfl
        | exact leads_discard (leads_accept (by decide))
        | exact initializerItem_closes closing _
        | refine leads_many closing.within (I := fun _ => True) ?_
        | refine super_closes closing ?_
        | refine leads_closing closing.within (by decide) ?_ ?_
        | refine leads_opening closing.within ?_ ?_
        | refine leads_either closing.within rfl ?_ ?_
        | refine leads_bind closing.within (closing.parse rfl) fun _ => ?_
        | refine leads_bind closing.within (sizedDimensionNext_keeps closing) fun _ => ?_
        | refine leads_closed closing ?_
      | refine name_closes closing (fun _ _ => ?_) fun _ => ?_
      | refine leads_closing closing.within (by decide) ?_ ?_
      | refine leads_opening closing.within ?_ ?_
      | refine leads_either closing.within rfl ?_ ?_
      | exact leads_closed closing (leads_accept (by decide))
      | exact leads_closed closing (closing.keeps _ rfl)
      | refine leads_bind closing.within (leads_whileTrue closing.within fun _ => ?_) fun _ => ?_
      | refine leads_bind closing.within (closing.parse rfl) fun _ => ?_
      | refine leads_after closing.within fun _ => ?_

theorem Closing.step : Closing (fun r ahead => r.body.read follow ahead) start where
  within r ahead := r.body.read_within closing.within ahead
  closes _ closes ahead x rest suffix here gives :=
    closing.body (P := fun _ => True) (.inl closes) ahead x rest suffix here (gives_parse gives)
  keeps _ keeps ahead x rest suffix here gives :=
    closing.body (.inr ⟨keeps, rfl⟩) ahead x rest suffix here (gives_parse gives)

end

theorem closing_readWithin (n : Nat) (start : List Token) : Closing (Rule.readWithin n) start := by
  induction n with
  | zero =>
    refine ⟨fun r ahead => .here _ ahead, fun r _ ahead x rest _ _ gives => ?_, fun r _ ahead x rest _ _ gives => ?_⟩
    · cases (gives_parse gives).result
    · cases (gives_parse gives).result
  | succ n ih => exact ih.step

/-! ## The end of the tokens looked for in a text -/

/-- Where the routine looks for the end of the tokens in a text, the last one of them may end an operand. -/
def Routine.InText (follow : Reader) {α : Type} (routine : Routine α) : Prop :=
  ∀ ahead, (routine.read follow ahead).result = .error .endInText → EndsOperand ahead

section

variable {follow : Reader} {α β σ : Type}

variable {o : Outcome α} {f : α → List Token → Outcome β}

theorem Outcome.error_of_andThen {failure : ParseFailure}
    (failed : (o.andThen f).result = .error failure) :
    o.result = .error failure ∨ ∃ a, o.Gives a o.ahead ∧ (f a o.ahead).result = .error failure := by
  rcases andThen_error_iff.1 failed with failed | ⟨a, rest, gives, failed⟩
  · exact .inl failed
  · obtain rfl := gives.ahead
    exact .inr ⟨a, gives, failed⟩

variable {start : List Token}

theorem inText_andThen (within : o.Within start)
    (first : o.result = .error .endInText → EndsOperand start)
    (second : ∀ a, o.Gives a o.ahead → (f a o.ahead).result = .error .endInText → EndsOperand o.ahead)
    (failed : (o.andThen f).result = .error .endInText) : EndsOperand start := by
  rcases error_of_andThen failed with failed | ⟨a, gives, failed⟩
  · exact first failed
  · exact (second a gives failed).of_suffix within.ahead

/-- Turns that keep `I` as long as they go on, and at whose failure the last token may end an operand. -/
theorem inText_repeated {step : σ → List Token → Outcome (σ × Bool)} {I : List Token → Prop}
    (within : ∀ s ahead, (step s ahead).Within ahead)
    (turn : ∀ s ahead, ahead <:+ start → I ahead → (step s ahead).result = .error .endInText → EndsOperand start)
    (goes : ∀ s ahead x rest, ahead <:+ start → I ahead → (step s ahead).Gives x rest → I rest)
    {s : σ} (suffix : ahead <:+ start) (here : I ahead)
    (failed : (repeated step n s ahead).result = .error .endInText) : EndsOperand start := by
  induction n generalizing s ahead with
  | zero => cases failed
  | succ n ih =>
    rcases error_of_andThen failed with first | ⟨⟨s', more⟩, gives, next⟩
    · exact turn s ahead suffix here first
    · cases more with
      | true => exact ih ((within s ahead).ahead.trans suffix) (goes s ahead _ _ suffix here gives) next
      | false => cases next

/-- Only what is said of the rules matters for a routine that does not look for the end of the tokens itself. -/
theorem inText_of_orderly (within : ∀ r ahead, (follow r ahead).Within ahead)
    (rules : ∀ r : Rule, (parse r).InText follow) (orderly : routine.OrderlyIn false) :
    routine.InText follow := by
  intro ahead failed
  induction routine generalizing ahead with
  | pure a => cases failed
  | fail failure =>
    cases failed
    cases orderly rfl
  | next k ih =>
    cases ahead with
    | nil => cases failed
    | cons t ahead => exact (ih t (orderly t) ahead failed).of_suffix (suffix_cons t ahead)
  | look i k ih => exact ih _ (orderly.2 _) ahead failed
  | call r k ih =>
    refine inText_andThen (within r ahead) (fun failed => rules r ahead ?_) (fun x _ => ih x (orderly x) _) failed
    rwa [read_parse]
  | attempt body k otherwise ihBody ihRest ihOtherwise =>
    obtain ⟨-, body_orderly, rest_orderly, otherwise_orderly⟩ := orderly
    have body_within := body.read_within within ahead
    rw [Routine.read] at failed
    split at failed
    · rename_i x ok
      rw [andThen_ok rfl] at failed
      exact (ihRest x (rest_orderly x) _ failed).of_suffix body_within.ahead
    · rename_i failure fails
      split at failed
      · exact (ihOtherwise otherwise_orderly _ failed).of_suffix body_within.mark
      · cases failed
        exact ihBody body_orderly ahead fails
  | loop s body k ihBody ihRest =>
    have body_within (s : _) (ahead : List Token) := (body s).read_within within ahead
    refine inText_andThen (repeated_within body_within _ s ahead) (fun failed => ?_)
      (fun s _ => ihRest s (orderly.2 s) _) failed
    refine inText_repeated (I := fun _ => True) body_within (fun s later suffix _ failed => ?_) (fun _ _ _ _ _ _ _ => trivial)
      suffix_rfl trivial failed
    exact (ihBody s (orderly.1 s) later failed).of_suffix suffix

theorem inText_bind (within : ∀ r ahead, (follow r ahead).Within ahead) {routine : Routine α} {f : α → Routine β}
    (first : routine.InText follow) (second : ∀ a, (f a).InText follow) : (routine >>= f).InText follow := by
  intro ahead failed
  rw [Routine.read_monad_bind] at failed
  exact inText_andThen (routine.read_within within ahead) (first ahead) (fun a _ => second a _) failed

theorem inText_attempt (within : ∀ r ahead, (follow r ahead).Within ahead) {body otherwise : Routine α}
    (first : body.InText follow) (second : otherwise.InText follow) :
    (Routine.attempt body .pure otherwise).InText follow := by
  intro ahead failed
  rw [Routine.read] at failed
  split at failed
  · cases failed
  · rename_i failure fails
    split at failed
    · exact (second _ failed).of_suffix (body.read_within within ahead).mark
    · cases failed
      exact first ahead fails

def selectorTurn (selectors : List Tree) : Routine (List Tree × Bool) := do
  let t ← peek
  if ← Body.selectorStart t then
    let selector ← parse .selector
    return (selectors ++ [selector.placeAt (positionOf t)], true)
  else return (selectors, false)

theorem read_selectorTurn_cons (selectors : List Tree) (t : Token) (ahead : List Token) :
    (selectorTurn selectors).read follow (t :: ahead) =
      if isAmong (some t) (Vocabulary.texts ["[", "."]) then
        (follow .selector (t :: ahead)).andThen fun selector ahead =>
          .ok (selectors ++ [selector.placeAt (positionOf (some t))], true) ahead
      else .ok (selectors, false) (t :: ahead) := by
  change Routine.read follow (if isAmong (some t) (Vocabulary.texts ["[", "."]) = true then _ else _) (t :: ahead) = _
  split
  · rw [Routine.read_monad_bind, read_parse]
    rfl
  · rfl

theorem selectorTurn_leads (closing : Closing follow start) (selectors : List Tree) :
    (selectorTurn selectors).Closes follow start (Closed start) := by
  intro ahead x rest suffix here gives
  cases ahead with
  | nil => cases gives.result
  | cons t ahead =>
    rw [read_selectorTurn_cons] at gives
    split at gives
    · obtain ⟨selector, mid, first, done⟩ := gives_andThen gives
      rw [← done.ahead]
      exact closing.closes .selector rfl _ selector mid suffix trivial (by rwa [read_parse])
    · rw [← gives.ahead]
      exact here

theorem selectorTurn_inText (rules : ∀ r : Rule, (parse r).InText follow)
    (selectors : List Tree) (suffix : ahead <:+ start) (here : Closed start ahead)
    (failed : ((selectorTurn selectors).read follow ahead).result = .error .endInText) : EndsOperand start := by
  cases ahead with
  | nil => exact here rfl
  | cons t ahead =>
    rw [read_selectorTurn_cons] at failed
    split at failed
    · rcases error_of_andThen failed with first | ⟨selector, -, done⟩
      · exact (rules .selector _ (by rwa [read_parse])).of_suffix suffix
      · cases done
    · cases failed

/-- **Operands.** The question for a selector is asked behind a primary expression, or behind a selector. -/
theorem operand_inText (closing : ∀ start, Closing follow start) (rules : ∀ r : Rule, (parse r).InText follow)
    (operators : List Text) : (Body.operand operators).InText follow := by
  intro start failed
  have within := (closing start).within
  have turn_within (selectors : List Tree) (ahead : List Token) := (selectorTurn selectors).read_within within ahead
  unfold Body.operand at failed
  rw [Routine.read_monad_bind] at failed
  rcases error_of_andThen failed with first | ⟨primary, gives, next⟩
  · exact rules .primary start first
  have suffix := ((parse .primary).read_within within start).ahead
  have closed : Closed start _ := (closing start).closes .primary rfl start primary _ suffix_rfl trivial gives
  have selectors_within := ((Routine.loop [] selectorTurn .pure).read_within within
    ((parse .primary).read follow start).ahead).ahead
  rw [Routine.read_monad_bind] at next
  rcases error_of_andThen next with turns | ⟨selectors, -, later⟩
  · rcases error_of_andThen turns with turns | ⟨_, -, done⟩
    · exact inText_repeated turn_within (fun selectors _ => selectorTurn_inText rules selectors)
        (fun selectors => selectorTurn_leads (closing start) selectors) suffix closed turns
    · cases done
  · refine (inText_of_orderly within rules ?_ _ later).of_suffix (selectors_within.trans suffix)
    exact Routine.orderly_bind (orderly_postfixOperators []) fun _ => Routine.orderly_pure _

theorem expressionThree_inText (closing : ∀ start, Closing follow start) (rules : ∀ r : Rule, (parse r).InText follow)
    : Body.expressionThree.InText follow := by
  have within := (closing []).within
  have other {γ : Type} {routine : Routine γ} (orderly : routine.OrderlyIn false) : routine.InText follow :=
    inText_of_orderly within rules orderly
  refine inText_bind within (other orderly_prefixOperators) fun operators => ?_
  have operand := operand_inText closing rules operators
  refine inText_bind within (other (orderly_wouldAccept _)) fun opens => ?_
  split
  · refine inText_attempt within (other Tried.lambda.orderly) ?_
    exact inText_attempt within (other Tried.cast.orderly) operand
  · exact operand

end

/-- **The end of the tokens in a text.** Where a rule fails because the end of the tokens is looked for in a text, the
last token may end an operand. -/
theorem Rule.endInText_of_readWithin (n : Nat) (r : Rule) : (parse r).InText (readWithin n) := by
  induction n generalizing r with
  | zero =>
    intro ahead failed
    cases failed
  | succ n ih =>
    intro ahead failed
    have closing := closing_readWithin n
    have body : r.body.InText (readWithin n) := by
      by_cases three : r = .expressionThree
      · subst three
        exact expressionThree_inText closing ih
      · exact inText_of_orderly (closing []).within ih (Rule.body_orderlyIn three)
    refine body ahead ?_
    rwa [read_parse] at failed

end JavaSource.Grammar
