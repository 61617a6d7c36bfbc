import JavaSource.Proofs.Annotations.LookAhead
import JavaSource.Proofs.Expression.Prefixes
import JavaSource.Proofs.Header.Declarations
import JavaSource.Proofs.Parentheses.Enclosure

/-!
# Modifiers and annotations in front of a statement

What the rule for modifiers takes, if no modifier but `final` is among it, is a sequence of items: `final`, and uses of
annotations. The look-ahead that goes by index comes to the same end exactly if it is in step with them: each use
without arguments has `final` behind it, and all others close the parentheses that they open.
-/

namespace JavaSource.Grammar

open List

/-! ## Uses of annotations -/

inductive NameTokens : List Token → Prop
  | last {t : Token} (name : isOf (some t) .identifier = true) : NameTokens [t]
  | dot {t dot : Token} {more : List Token} (name : isOf (some t) .identifier = true)
    (dotted : isWord (some dot) "." = true) (rest : NameTokens more) : NameTokens (t :: dot :: more)

/-- **The tokens of a use of an annotation**, in front of others: a sign and a name, with or without arguments. -/
inductive UseTokens (rest : List Token) : List Token → Prop
  | plain {sign : Token} {name : List Token} (named : NameTokens name) (noDot : isWord rest[0]? "." = false)
    (noArguments : isWord rest[0]? "(" = false) : UseTokens rest (sign :: name)
  | arguments {sign opening closing : Token} {name inner : List Token} (named : NameTokens name)
    (opens : isWord (some opening) "(" = true) (closes : isWord (some closing) ")" = true)
    (inside : ∀ m, countOf ")" (inner.take m) ≤ countOf "(" (inner.take m)) :
    UseTokens rest (sign :: (name ++ opening :: (inner ++ [closing])))

section

variable {n : Nat} {ahead rest : List Token}

theorem nameTokens_of_series {names : List Text} (series : Series NameItem ahead names rest) :
    ∃ used, ahead = used ++ rest ∧ NameTokens used ∧ isWord rest[0]? "." = false := by
  induction series with
  | last item =>
    cases item with
    | intro isName point =>
      cases point with
      | missing other => exact ⟨[_], rfl, .last isName, other⟩
  | more item _ ih =>
    obtain ⟨used, rfl, named, ends⟩ := ih
    cases item with
    | intro isName point =>
      cases point with
      | there dot => exact ⟨_ :: _ :: used, rfl, .dot isName dot named, ends⟩

variable {tree : Tree}

theorem gives_annotationUse (genuine : ∀ t ∈ ahead, t.Genuine)
    (gives : (Rule.annotationUse.readWithin n ahead).Gives tree rest) :
    ∃ tokens, ahead = tokens ++ rest ∧ UseTokens rest tokens := by
  obtain ⟨n, rfl, gives⟩ := gives_rule gives
  change (Body.annotationUse.read (Rule.readWithin n) ahead).Gives tree rest at gives
  obtain ⟨sign, mid, rfl, -, goes⟩ := gives_accepted gives
  obtain ⟨name, mid, names, further⟩ := gives_bind goes
  obtain ⟨_, -, series⟩ := qualifiedIdentifier_gives.1 (gives_deeper (Nat.le_add_right n 2) (gives_parse names))
  obtain ⟨used, rfl, named, noDot⟩ := nameTokens_of_series series
  obtain ⟨taken, mid', opened⟩ := exists_optionally "(" mid
  rw [Routine.read_bind_ok opened.read] at further
  cases opened with
  | missing noArguments =>
    obtain ⟨_, _, done, last⟩ := gives_bind further
    obtain ⟨-, rfl⟩ := gives_pure done
    obtain ⟨-, rfl⟩ := gives_pure last
    exact ⟨sign :: used, rfl, .plain named noDot noArguments⟩
  | @there opening later opens =>
    -- What is done behind the arguments, whether there are any or not.
    have closing {element : Tree} {mid : List Token}
        (goes : (Routine.read (Rule.readWithin n) (do
          discard (accept [")"])
          let element ← pure element
          pure (Tree.make .annotationUse [(.name, .text name), (.element, element)])) mid).Gives tree rest) :
        ∃ closing, isWord (some closing) ")" = true ∧ mid = closing :: rest := by
      obtain ⟨closing, _, rfl, closes, behind⟩ := gives_accepted goes
      obtain ⟨_, _, same, done⟩ := gives_bind behind
      obtain ⟨-, rfl⟩ := gives_pure same
      obtain ⟨-, rfl⟩ := gives_pure done
      exact ⟨closing, closes, rfl⟩
    obtain ⟨empty, later, tested, further⟩ := gives_bind further
    obtain ⟨-, rfl⟩ := gives_wouldAccept tested
    cases empty with
    | true =>
      obtain ⟨_, _, none, ending⟩ := gives_bind further
      obtain ⟨-, rfl⟩ := gives_pure none
      obtain ⟨last, closes, rfl⟩ := closing ending
      refine ⟨sign :: (used ++ opening :: ([] ++ [last])), ?_, .arguments named opens closes fun m => ?_⟩
      · simp only [cons_append, append_assoc, nil_append]
      · rw [take_nil]
        exact Nat.le_refl _
    | false =>
      obtain ⟨element, mid, read, ending⟩ := gives_bind further
      obtain ⟨last, closes, rfl⟩ := closing ending
      have behind : ∀ t ∈ later, t.Genuine := fun t mem =>
        genuine t (mem_cons_of_mem _ (mem_append_right _ (mem_cons_of_mem _ mem)))
      have above := Rule.above_of_gives behind (gives_parse read)
      obtain ⟨inner, rfl⟩ := above.suffix
      refine ⟨sign :: (used ++ opening :: (inner ++ [last])), ?_, .arguments named opens closes above.take_le⟩
      simp only [cons_append, append_assoc, nil_append]

theorem useTokens_of_gives {tokens : List Token} (genuine : ∀ t ∈ tokens ++ ahead, t.Genuine)
    (gives : (Rule.annotationUse.readWithin n (tokens ++ ahead)).Gives tree ahead) : UseTokens ahead tokens := by
  obtain ⟨used, split, shape⟩ := gives_annotationUse genuine gives
  rwa [append_cancel_right split]

end

/-! ## Their places -/

section

variable {front ahead rest tokens name : List Token} {j : Nat} {passed : Bool}

theorem getElem?_behind (front ahead : List Token) (i : Nat) : (front ++ ahead)[front.length + i]? = ahead[i]? := by
  rw [getElem?_append_right (Nat.le_add_right _ _), Nat.add_sub_cancel_left]

/-- The look-ahead comes to the end of a name. -/
theorem NameTokens.ends (named : NameTokens name) (noDot : isWord rest[0]? "." = false) (front : List Token) :
    NameEnds (front ++ (name ++ rest)) (front.length + 1) (front.length + name.length) := by
  induction named generalizing front with
  | @last t =>
    refine .here ?_
    rw [getElem?_behind]
    exact noDot
  | @dot t dot more _ dotted _ ih =>
    have further := ih (front ++ [t, dot])
    have start : (front ++ [t, dot]).length + 1 = front.length + 1 + 2 := by
      rw [length_append]
      exact Nat.add_right_comm _ _ _
    have stop : (front ++ [t, dot]).length + more.length = front.length + (t :: dot :: more).length := by
      rw [length_append, length_cons, length_cons, Nat.add_assoc]
      exact congrArg _ (Nat.add_comm 2 _)
    rw [append_assoc, start, stop] at further
    refine .dot ?_ further
    rw [getElem?_behind]
    exact dotted

theorem NameTokens.mem (named : NameTokens name) :
    ∀ t ∈ name, isOf (some t) .identifier = true ∨ isWord (some t) "." = true := by
  induction named with
  | last isName => exact fun t mem => .inl (mem_singleton.1 mem ▸ isName)
  | dot isName dotted _ ih =>
    intro t mem
    rcases mem_cons.1 mem with rfl | mem
    · exact .inl isName
    · rcases mem_cons.1 mem with rfl | mem
      · exact .inr dotted
      · exact ih t mem

variable {sign : Token}

/-- There are no parentheses in front of the arguments. -/
theorem NameTokens.no_parentheses (named : NameTokens name) (genuine : ∀ t ∈ sign :: name, t.Genuine)
    (isSign : isOf (some sign) .atSign = true) {word : String} (known : word = "(" ∨ word = ")") :
    countOf word (sign :: name) = 0 := by
  refine countP_eq_zero.2 fun t mem is => ?_
  have separator : isOf (some t) .separator = true := by
    have cls : classOf (some t) = .separator :=
      Token.Genuine.isOf_word (fun u same => Option.some.inj same ▸ genuine t mem)
        (by rcases known with rfl | rfl <;> decide) is
    rw [isOf, cls]
    rfl
  rcases mem_cons.1 mem with rfl | mem
  · exact absurd ((isOf_apart isSign (by decide)).symm.trans separator) Bool.false_ne_true
  · rcases named.mem t mem with isName | dot
    · exact absurd ((isOf_apart isName (by decide)).symm.trans separator) Bool.false_ne_true
    · have other : isWord (some t) word = false := isWord_ne dot (by rcases known with rfl | rfl <;> decide)
      exact absurd (other.symm.trans is) Bool.false_ne_true

theorem annotationAt_behind : AnnotationAt (front ++ ahead) front.length ↔ annotated ahead = true := by
  have first : (front ++ ahead)[front.length]? = ahead[0]? := getElem?_behind front ahead 0
  rw [annotated, Bool.and_eq_true, Bool.not_eq_true', ← first, ← getElem?_behind front ahead 1]
  exact ⟨fun starts => ⟨starts.sign, starts.use⟩, fun both => ⟨both.1, both.2⟩⟩

theorem sign_of_annotated (starts : annotated (sign :: ahead) = true) :
    isOf (some sign) .atSign = true :=
  (Bool.and_eq_true_iff.1 starts).1

theorem NameTokens.behind_sign (named : NameTokens name) (noDot : isWord rest[0]? "." = false)
    (front : List Token) :
    NameEnds (front ++ sign :: (name ++ rest)) (front.length + 2) (front.length + (sign :: name).length) := by
  have ends := named.ends noDot (front ++ [sign])
  have length : (front ++ [sign]).length + name.length = front.length + (sign :: name).length := by
    rw [length_append, length_cons, Nat.add_assoc]
    exact congrArg _ (Nat.add_comm 1 _)
  rwa [append_assoc, length, length_append] at ends

/-- Behind a use without arguments the look-ahead passes one more token. -/
theorem leadStep_plain (starts : annotated (sign :: name ++ ahead) = true) (named : NameTokens name)
    (noDot : isWord ahead[0]? "." = false) (noArguments : isWord ahead[0]? "(" = false) (front : List Token) :
    LeadStep (front ++ (sign :: name ++ ahead)) front.length (front.length + (sign :: name).length + 1) true := by
  refine .plain (annotationAt_behind.2 starts) (named.behind_sign noDot front) ?_
  rw [← append_assoc, ← length_append, ← Nat.add_zero (front ++ sign :: name).length, getElem?_behind]
  exact noArguments

section Arguments

variable {sign opening closing : Token} {inner : List Token}

/-- What the look-ahead counts parentheses in. -/
theorem drop_opening (front ahead : List Token) :
    (front ++ (sign :: (name ++ opening :: (inner ++ [closing])) ++ ahead)).drop
      (front.length + (sign :: name).length + 1) = inner ++ closing :: ahead := by
  have parts : front ++ (sign :: (name ++ opening :: (inner ++ [closing])) ++ ahead) =
      (front ++ (sign :: name) ++ [opening]) ++ (inner ++ closing :: ahead) := by
    simp only [cons_append, append_assoc, nil_append]
  rw [parts]
  exact drop_left' (by rw [length_append, length_append]; rfl)

variable (starts : annotated (sign :: (name ++ opening :: (inner ++ [closing])) ++ ahead) = true)
  (named : NameTokens name) (opens : isWord (some opening) "(" = true)

include named opens in
theorem nameEnds_opening (front : List Token) :
    NameEnds (front ++ (sign :: (name ++ opening :: (inner ++ [closing])) ++ ahead)) (front.length + 2)
      (front.length + (sign :: name).length) ∧
    (front ++ (sign :: (name ++ opening :: (inner ++ [closing])) ++ ahead))[front.length + (sign :: name).length]? =
      some opening := by
  have parts : sign :: (name ++ opening :: (inner ++ [closing])) ++ ahead =
      sign :: name ++ (opening :: (inner ++ [closing] ++ ahead)) := by
    simp only [cons_append, append_assoc]
  rw [parts]
  refine ⟨named.behind_sign (isWord_ne opens (by decide)) front, ?_⟩
  rw [getElem?_behind, ← Nat.add_zero (sign :: name).length, getElem?_behind]
  rfl

include starts named opens in
/-- The look-ahead comes to the end of arguments that close the parentheses they open. -/
theorem leadStep_arguments (closes : isWord (some closing) ")" = true)
    (inside : ∀ m, countOf ")" (inner.take m) ≤ countOf "(" (inner.take m))
    (even : countOf "(" inner = countOf ")" inner) (front : List Token) :
    LeadStep (front ++ (sign :: (name ++ opening :: (inner ++ [closing])) ++ ahead)) front.length
      (front.length + (sign :: (name ++ opening :: (inner ++ [closing]))).length) true := by
  obtain ⟨ends, here⟩ := @nameEnds_opening ahead name sign opening closing inner named opens front
  have closed : ClosedAfter (inner ++ closing :: ahead) 0 (inner.length + 1) := by
    constructor
    · rw [take_length_add_append, countOf_append, countOf_append, take_succ_cons, take_zero,
        countOf_hit closes, countOf_miss (isWord_ne closes (by decide)), even]
      rfl
    · intro m lt
      rw [take_append_of_le_length (Nat.le_of_lt_succ lt)]
      exact inside m
  have step := LeadStep.arguments (annotationAt_behind.2 starts) ends (here ▸ opens) (drop_opening front ahead ▸ closed)
  have stop : front.length + (sign :: name).length + 1 + (inner.length + 1) =
      front.length + (sign :: (name ++ opening :: (inner ++ [closing]))).length := by
    simp only [length_cons, length_append, length_nil]
    omega
  rwa [stop] at step

include named opens in
/-- Arguments that do not close the parentheses they open: the look-ahead goes past all that follows, as long as this
closes no more than it opens. -/
theorem lt_of_unclosed {taken : List Token} (closes : isWord (some closing) ")" = true)
    (starts : annotated (sign :: (name ++ opening :: (inner ++ [closing])) ++ (taken ++ rest)) = true)
    (inside : ∀ m, countOf ")" (inner.take m) ≤ countOf "(" (inner.take m))
    (uneven : countOf "(" inner ≠ countOf ")" inner)
    (further : ∀ m, countOf ")" (taken.take m) ≤ countOf "(" (taken.take m))
    (step : LeadStep (front ++ (sign :: (name ++ opening :: (inner ++ [closing])) ++ (taken ++ rest))) front.length j
      passed) : front.length + (sign :: (name ++ opening :: (inner ++ [closing]))).length + taken.length < j := by
  obtain ⟨ends, here⟩ := @nameEnds_opening (taken ++ rest) name sign opening closing inner named opens front
  cases step with
  | final modifier =>
    exact absurd ((annotationAt_behind.2 starts).not_modifier.symm.trans modifier) Bool.false_ne_true
  | plain _ ends' plain =>
    rw [← ends.unique ends', here] at plain
    exact absurd (plain.symm.trans opens) Bool.false_ne_true
  | @arguments _ n _ ends' _ closed =>
    rw [← ends.unique ends'] at closed ⊢
    rw [drop_opening] at closed
    have last := closed.last
    have all := inside inner.length
    rw [take_length] at all
    simp only [length_cons, length_append, length_nil]
    by_contra before
    rcases Nat.lt_or_ge inner.length n with gt | le
    · obtain ⟨m, rfl⟩ : ∃ m, n = inner.length + (m + 1) := ⟨n - inner.length - 1, by omega⟩
      have rest := further m
      rw [take_length_add_append, take_succ_cons, take_append_of_le_length (by omega), countOf_append,
        countOf_append, countOf_hit closes, countOf_miss (isWord_ne closes (by decide))] at last
      omega
    · have part := inside n
      rw [take_append_of_le_length le] at last
      omega

include named opens in
theorem countOf_arguments (closes : isWord (some closing) ")" = true) (genuine : ∀ t ∈ sign :: name, t.Genuine)
    (isSign : isOf (some sign) .atSign = true) :
    countOf "(" (sign :: (name ++ opening :: (inner ++ [closing]))) = countOf "(" inner + 1 ∧
      countOf ")" (sign :: (name ++ opening :: (inner ++ [closing]))) = countOf ")" inner + 1 := by
  have parts : sign :: (name ++ opening :: (inner ++ [closing])) = sign :: name ++ opening :: (inner ++ [closing]) :=
    rfl
  constructor
  · rw [parts, countOf_append, named.no_parentheses genuine isSign (.inl rfl), countOf_hit opens, countOf_append,
      countOf_miss (isWord_ne closes (by decide)), Nat.zero_add]
    rfl
  · rw [parts, countOf_append, named.no_parentheses genuine isSign (.inr rfl),
      countOf_miss (isWord_ne opens (by decide)), countOf_append, countOf_hit closes, Nat.zero_add]
    rfl

end Arguments

end

/-! ## Items -/

/-- A modifier or the use of an annotation in front of a statement, by its tokens. -/
inductive LeadItem where
  | final (t : Token)
  | use (tokens : List Token)

def LeadItem.isUse : LeadItem → Bool
  | final _ => false
  | use _ => true

def startsFinal : List LeadItem → Bool
  | .final _ :: _ => true
  | _ => false

/-- **Whether the look-ahead keeps in step** with the items: a use without arguments has `final` behind it, and any
other use closes as many parentheses as it opens. -/
def inStep : List LeadItem → Bool
  | [] => true
  | .final _ :: items => inStep items
  | .use tokens :: items =>
    (if countOf "(" tokens = 0 then startsFinal items else countOf "(" tokens == countOf ")" tokens) && inStep items

/-- **The items in front of a statement**, up to a token that is neither a modifier nor the start of a use. Uses are
what the rule for them accepts. -/
inductive Leads (rest : List Token) : List LeadItem → List Token → Prop
  | done (noModifier : isOf rest[0]? .modifier = false) (noUse : annotated rest = false) : Leads rest [] rest
  | final {t : Token} {items : List LeadItem} {ahead : List Token} (modifier : isOf (some t) .modifier = true)
    (final : isWord (some t) "final" = true) (further : Leads rest items ahead) :
    Leads rest (.final t :: items) (t :: ahead)
  | use {tokens : List Token} {items : List LeadItem} {ahead : List Token} {n : Nat} {tree : Tree}
    (starts : annotated (tokens ++ ahead) = true)
    (gives : (Rule.annotationUse.readWithin n (tokens ++ ahead)).Gives tree ahead) (further : Leads rest items ahead) :
    Leads rest (.use tokens :: items) (tokens ++ ahead)

namespace Leads

variable {rest ahead : List Token} {items : List LeadItem} {k : Nat} {later : Bool}

theorem above (leads : Leads rest items ahead) (genuine : ∀ t ∈ ahead, t.Genuine) :
    Above (surplus ahead) ahead rest := by
  induction leads with
  | done => exact .here (Int.le_refl _)
  | @final t _ ahead modifier _ _ ih =>
    have same : surplus (t :: ahead) = surplus ahead := surplus_of_cls (genuine t mem_cons_self) modifier rfl ahead
    rw [same]
    have further := ih fun u mem => genuine u (mem_cons_of_mem _ mem)
    exact (Above.behind (le_of_eq same.symm) (Int.le_refl _)).trans further
  | use _ gives _ ih =>
    have first := Rule.above_of_gives genuine gives
    exact first.trans ((ih fun u mem => genuine u (mem_append_right _ mem)).mono first.le)

theorem length_le (leads : Leads rest items ahead) : rest.length ≤ ahead.length := by
  induction leads with
  | done => exact Nat.le_refl _
  | final _ _ _ ih => exact Nat.le_succ_of_le ih
  | use _ _ _ ih =>
    rw [length_append]
    omega

/-- The look-ahead stops at the end of the items. -/
theorem stays (noModifier : isOf rest[0]? .modifier = false) (noUse : annotated rest = false) (front : List Token) :
    LeadStays (front ++ rest) front.length := by
  have first : (front ++ rest)[front.length]? = rest[0]? := getElem?_behind front rest 0
  refine ⟨fun modifier => ?_, fun starts => ?_⟩
  · rw [first, noModifier] at modifier
    cases modifier
  · rw [annotationAt_behind, noUse] at starts
    cases starts

theorem leadStep_final {t : Token} (modifier : isOf (some t) .modifier = true)
    (final : isWord (some t) "final" = true)
    (front ahead : List Token) : LeadStep (front ++ t :: ahead) front.length (front.length + 1) false := by
  have first : (front ++ t :: ahead)[front.length]? = some t := getElem?_behind front (t :: ahead) 0
  exact .final (first ▸ modifier) (first ▸ final)

/-- **In step, the look-ahead stops where the items end.** The induction is on the items, behind those that the
look-ahead has passed. -/
theorem halts (leads : Leads rest items ahead) (genuine : ∀ t ∈ ahead, t.Genuine) (step : inStep items = true)
    (front : List Token) :
    Halts (front ++ ahead) front.length ((front ++ ahead).length - rest.length) (items.any LeadItem.isUse) := by
  induction leads generalizing front with
  | done noModifier noUse =>
    rw [length_append, Nat.add_sub_cancel]
    exact .here (stays noModifier noUse front)
  | @final t items ahead modifier final _ ih =>
    have rest := ih (fun u mem => genuine u (mem_cons_of_mem _ mem)) step (front ++ [t])
    have one : (front ++ [t]).length = front.length + 1 := length_append
    rw [← append_cons, one] at rest
    exact .step (leadStep_final modifier final front ahead) rest
  | @use tokens items ahead _ _ starts gives further ih =>
    have before : ∀ u ∈ tokens, u.Genuine := fun u mem => genuine u (mem_append_left _ mem)
    have behind : ∀ u ∈ ahead, u.Genuine := fun u mem => genuine u (mem_append_right _ mem)
    obtain ⟨fits, step⟩ := Bool.and_eq_true_iff.1 step
    have rest := ih behind step (front ++ tokens)
    have length : (front ++ tokens).length = front.length + tokens.length := length_append
    rw [append_assoc, length] at rest
    cases useTokens_of_gives genuine gives with
    | @plain sign name named noDot noArguments =>
      rw [if_pos (named.no_parentheses before (sign_of_annotated starts) (.inl rfl))] at fits
      cases further with
      | done => cases fits
      | use => cases fits
      | @final t items ahead modifier final _ =>
        -- The look-ahead passes `final` unseen.
        have passes := leadStep_final modifier final (front ++ sign :: name) ahead
        rw [append_assoc, length] at passes
        obtain ⟨_, rfl, rest⟩ := rest.behind passes
        exact .step (leadStep_plain starts named noDot noArguments front) rest
    | @arguments sign opening closing name inner named opens closes inside =>
      have first : ∀ u ∈ sign :: name, u.Genuine := fun u mem =>
        before u (mem_append_left (opening :: (inner ++ [closing])) mem)
      obtain ⟨opened, closed⟩ := countOf_arguments named opens closes first (sign_of_annotated starts)
      rw [opened, if_neg (Nat.succ_ne_zero _), closed, beq_iff_eq, Nat.add_right_cancel_iff] at fits
      exact .step (leadStep_arguments starts named opens closes inside fits front) rest

/-- Behind a use without arguments there has to be `final`: the look-ahead passes the end, or it stops at the name of
the next use. -/
theorem startsFinal_of_halts (leads : Leads rest items ahead) (genuine : ∀ t ∈ ahead, t.Genuine) (front : List Token)
    (halts : Halts (front ++ ahead) (front.length + 1) ((front ++ ahead).length - rest.length) later) :
    startsFinal items = true := by
  cases leads with
  | final => rfl
  | done =>
    have past := halts.le
    rw [length_append] at past
    omega
  | @use tokens items ahead _ _ starts gives further =>
    obtain ⟨sign, t, more, rfl, isName⟩ :
        ∃ sign t more, tokens = sign :: t :: more ∧ isOf (some t) .identifier = true := by
      cases useTokens_of_gives genuine gives with
      | @plain sign name named =>
        cases named with
        | @last t isName => exact ⟨sign, t, [], rfl, isName⟩
        | @dot t dot more isName => exact ⟨sign, t, dot :: more, rfl, isName⟩
      | @arguments sign opening closing name inner named =>
        cases named with
        | @last t isName => exact ⟨sign, t, _, rfl, isName⟩
        | @dot t dot more isName => exact ⟨sign, t, _, rfl, isName⟩
    have second : (front ++ (sign :: t :: more ++ ahead))[front.length + 1]? = some t := getElem?_behind _ _ 1
    have stays : LeadStays (front ++ (sign :: t :: more ++ ahead)) (front.length + 1) := by
      refine ⟨fun modifier => ?_, fun use => ?_⟩
      · rw [second, isOf_apart isName (by decide)] at modifier
        cases modifier
      · have sign := use.sign
        rw [second, isOf_apart isName (by decide)] at sign
        cases sign
    have stop := halts.eq_of_stays stays
    have behind := further.length_le
    simp only [length_append, length_cons] at stop
    omega

/-- **Out of step, the look-ahead does not stop where the items end.** -/
theorem inStep_of_halts (leads : Leads rest items ahead) (genuine : ∀ t ∈ ahead, t.Genuine) (front : List Token)
    (halts : Halts (front ++ ahead) front.length ((front ++ ahead).length - rest.length) later) :
    inStep items = true := by
  induction leads generalizing front later with
  | done => rfl
  | @final t items ahead modifier final _ ih =>
    obtain ⟨_, -, halts⟩ := halts.behind (leadStep_final modifier final front ahead)
    have one : (front ++ [t]).length = front.length + 1 := length_append
    rw [append_cons, ← one] at halts
    exact ih (fun u mem => genuine u (mem_cons_of_mem _ mem)) (front ++ [t]) halts
  | @use tokens items ahead _ _ starts gives further ih =>
    have before : ∀ u ∈ tokens, u.Genuine := fun u mem => genuine u (mem_append_left _ mem)
    have behind : ∀ u ∈ ahead, u.Genuine := fun u mem => genuine u (mem_append_right _ mem)
    have length : (front ++ tokens).length = front.length + tokens.length := length_append
    rw [inStep, Bool.and_eq_true]
    cases useTokens_of_gives genuine gives with
    | @plain sign name named noDot noArguments =>
      obtain ⟨_, -, halts⟩ := halts.behind (leadStep_plain starts named noDot noArguments front)
      rw [← append_assoc, ← length] at halts
      have goes := further.startsFinal_of_halts behind _ halts
      rw [if_pos (named.no_parentheses before (sign_of_annotated starts) (.inl rfl))]
      refine ⟨goes, ?_⟩
      cases further with
      | done => cases goes
      | use => cases goes
      | final modifier final _ => exact ih behind _ (.step (leadStep_final modifier final _ _) halts)
    | @arguments sign opening closing name inner named opens closes inside =>
      have first : ∀ u ∈ sign :: name, u.Genuine := fun u mem =>
        before u (mem_append_left (opening :: (inner ++ [closing])) mem)
      obtain ⟨opened, closed⟩ := countOf_arguments named opens closes first (sign_of_annotated starts)
      rw [opened, if_neg (Nat.succ_ne_zero _), closed, beq_iff_eq, Nat.add_right_cancel_iff]
      by_cases even : countOf "(" inner = countOf ")" inner
      · obtain ⟨_, -, halts⟩ := halts.behind (leadStep_arguments starts named opens closes inside even front)
        rw [← append_assoc, ← length] at halts
        exact ⟨even, ih behind _ halts⟩
      · have above := further.above behind
        obtain ⟨taken, rfl⟩ := above.suffix
        obtain ⟨j, _, _, step, halts⟩ := halts.next fun stays => stays.noUse (annotationAt_behind.2 starts)
        have past := lt_of_unclosed named opens closes starts inside even above.take_le step
        have le := halts.le
        rw [length_append, length_append, length_append] at le
        omega

end Leads

end JavaSource.Grammar
