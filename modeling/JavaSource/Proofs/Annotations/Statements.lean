import JavaSource.Proofs.Annotations.Leading
import JavaSource.Proofs.Expression.NamedPrimaries

/-!
# Statements behind modifiers and annotations

Where the look-ahead in front of a statement keeps in step with the modifiers and annotations, the declaration of a
type is read as such, and the declaration of a variable is at the place of its type. Without a list of arguments behind
an annotation it does not, unless `final` follows.
-/

open List

namespace JavaSource.Grammar

open Lexer Routine Outcome Text Pattern
open Rule (readWithin)

/-! ## What the rules for modifiers take -/

theorem mem_addModifier (m : Text) (modifiers : List Text) : m ∈ addModifier m modifiers := by
  rw [addModifier]
  split
  · rename_i has
    exact contains_iff_mem.1 has
  · exact mem_append_right _ (mem_singleton_self m)

theorem subset_addModifier (m : Text) (modifiers : List Text) : modifiers ⊆ addModifier m modifiers := by
  rw [addModifier]
  split
  · exact List.Subset.refl _
  · exact subset_append_left _ _

/-- What is no modifier is none of the words for modifiers. -/
theorem noModifier_ne {ahead : List Token} (genuine : ∀ t ∈ ahead, t.Genuine) {word : String}
    (fixed : Vocabulary.fixedClass? (ofString word) = some .modifier)
    (noModifier : isOf ahead[0]? .modifier = false) : isWord ahead[0]? word = false := by
  refine Bool.eq_false_iff.2 fun is => ?_
  rw [isOf, Token.Genuine.isOf_word (Parser.genuine_head genuine) fixed is] at noModifier
  cases noModifier

section

variable {n : Nat} {ahead rest : List Token} {items : List LeadItem}

variable {k : Nat}

/-- Turns of the rule for modifiers: no modifier is lost, and what is taken are items if `final` is the only one. The
induction is on the number of turns. -/
theorem leads_of_turns {acc found : VariableModifiers}
    (gives : (readModifiers Body.anyModifier (readWithin n) k acc ahead).Gives found rest) :
    acc.modifiers ⊆ found.modifiers ∧
      ((∀ m ∈ found.modifiers, m = ofString "final") → ∃ items, Leads rest items ahead) := by
  induction k generalizing acc ahead with
  | zero => cases gives.result
  | succ k ih =>
    cases modifier : isOf ahead[0]? .modifier with
    | true =>
      cases ahead with
      | nil => cases modifier
      | cons t later =>
        have turn : (Body.modifierNext Body.anyModifier acc).read (readWithin n) (t :: later) =
            .ok ({ acc with modifiers := addModifier t.value acc.modifiers }, true) later := by
          rw [read_modifierNext, read_anyModifier_some modifier, andThen_pure]
        rw [readModifiers, repeated_more turn] at gives
        obtain ⟨kept, leads⟩ := ih gives
        refine ⟨fun m mem => kept (subset_addModifier _ _ mem), fun finals => ?_⟩
        obtain ⟨items, leads⟩ := leads finals
        have final := finals t.value (kept (mem_addModifier _ _))
        exact ⟨.final t :: items, .final modifier (isWord_some.2 final) leads⟩
    | false =>
      have none : Body.anyModifier.read (readWithin n) ahead = .ok none ahead :=
        read_anyModifier_none modifier
      cases starts : annotated ahead with
      | false =>
        rw [readModifiers_ended none starts] at gives
        obtain ⟨same, rfl⟩ := gives
        cases same
        exact ⟨List.Subset.refl _, fun _ => ⟨[], .done modifier starts⟩⟩
      | true =>
        have turn : (Body.modifierNext Body.anyModifier acc).read (readWithin n) ahead =
            (Rule.annotationUse.readWithin n ahead).andThen fun a rest =>
              { result := .ok ({ acc with annotations := acc.annotations ++ [a.placeAt (positionOf ahead[0]?)] }, true)
                ahead := rest } := by
          rw [read_modifierNext, none, andThen_pure]
          exact if_pos starts
        rw [readModifiers, repeated_andThen turn] at gives
        obtain ⟨tree, mid, use, gives⟩ := gives_andThen gives
        obtain ⟨kept, leads⟩ := ih gives
        refine ⟨kept, fun finals => ?_⟩
        obtain ⟨items, leads⟩ := leads finals
        have suffix := (Rule.readWithin_within n .annotationUse ahead).ahead
        rw [use.ahead] at suffix
        obtain ⟨tokens, rfl⟩ := suffix
        exact ⟨.use tokens :: items, .use starts use leads⟩

/-- **The rule for modifiers takes items**, if no modifier but `final` is among what it takes. -/
theorem leads_of_modifiers {found : Modifiers} (gives : (Rule.modifiers.readWithin n ahead).Gives found rest)
    (finals : ∀ m ∈ found.modifiers, m = ofString "final") : ∃ items, Leads rest items ahead := by
  obtain ⟨n, rfl, gives⟩ := gives_rule gives
  change (Body.modifiers.read (readWithin n) ahead).Gives found rest at gives
  rw [read_modifiers] at gives
  obtain ⟨taken, _, turns, done⟩ := gives_andThen gives
  obtain ⟨same, rfl⟩ := done
  cases same
  exact (leads_of_turns turns).2 finals

namespace Leads

/-- The rule for the modifiers of a variable takes all items too. -/
theorem eq_of_variableModifiers (leads : Leads rest items ahead) (genuine : ∀ t ∈ ahead, t.Genuine)
    {acc found : VariableModifiers} {rest' : List Token}
    (gives : (readModifiers Body.finalModifier (readWithin n) k acc ahead).Gives found rest') : rest' = rest := by
  induction leads generalizing k acc with
  | done noModifier noUse =>
    cases k with
    | zero => cases gives.result
    | succ k =>
      have noFinal : isWord rest[0]? "final" = false := noModifier_ne genuine rfl noModifier
      rw [readModifiers_ended (read_finalModifier_none noFinal) noUse] at gives
      exact gives.ahead.symm
  | @final t items ahead modifier final _ ih =>
    cases k with
    | zero => cases gives.result
    | succ k =>
      obtain ⟨acc', turn⟩ : ∃ acc', readModifiers Body.finalModifier (readWithin n) (k + 1) acc (t :: ahead) =
          readModifiers Body.finalModifier (readWithin n) k acc' ahead :=
        readModifiers_taken (read_finalModifier_some final _) k acc
      rw [turn] at gives
      exact ih (fun u mem => genuine u (mem_cons_of_mem _ mem)) gives
  | @use tokens items ahead _ _ starts gives' _ ih =>
    cases k with
    | zero => cases gives.result
    | succ k =>
      have noFinal : isWord (tokens ++ ahead)[0]? "final" = false :=
        Token.Genuine.not_word (Parser.genuine_head genuine) (Bool.and_eq_true_iff.1 starts).1 rfl
      obtain ⟨next, turn⟩ := @readModifiers_annotated (readWithin n) _ _ (read_finalModifier_none noFinal) starts k
        acc
      rw [turn] at gives
      obtain ⟨tree, mid, use, further⟩ := gives_andThen gives
      obtain ⟨-, rfl⟩ := Rule.Gives.unique ⟨_, use⟩ ⟨_, gives'⟩
      exact ih (fun u mem => genuine u (mem_append_right _ mem)) further

/-! ## What is told by the look-ahead -/

theorem noModifier (leads : Leads rest items ahead) : isOf rest[0]? .modifier = false := by
  induction leads with
  | done noModifier => exact noModifier
  | final _ _ _ ih => exact ih
  | use _ _ _ ih => exact ih

theorem not_synchronized (leads : Leads rest items ahead) (genuine : ∀ t ∈ ahead, t.Genuine) :
    isWord ahead[0]? "synchronized" = false := by
  cases leads with
  | done noModifier => exact noModifier_ne genuine rfl noModifier
  | final _ final => exact isWord_ne final (by decide)
  | use starts => exact Token.Genuine.not_word (Parser.genuine_head genuine) (Bool.and_eq_true_iff.1 starts).1 rfl

/-- In front of items there is no label, if there is none behind them. -/
theorem unlabelled (leads : Leads rest items ahead) (none : fitAll [.cls .identifier, ":"] rest = false) :
    fitAll [.cls .identifier, ":"] ahead = false := by
  have first {ahead : List Token} {c : TokenClass} (isC : isOf ahead[0]? c = true)
      (apart : TokenClass.all.all fun k => !(k.isA c && k.isA .identifier)) :
      fitAll [.cls .identifier, ":"] ahead = false := by
    rw [fitAll, Pattern.fits, isOf_apart isC apart, Bool.false_and]
  cases leads with
  | done => exact none
  | final modifier => exact first modifier (by decide)
  | use starts => exact first (Bool.and_eq_true_iff.1 starts).1 (by decide)

/-- **In step, the look-ahead finds the token behind the items.** -/
theorem read_lead (leads : Leads rest items ahead) (genuine : ∀ t ∈ ahead, t.Genuine) (step : inStep items = true)
    (follow : Reader) :
    Body.lead.read follow ahead = .ok (.passed rest[0]? (items.any LeadItem.isUse)) ahead := by
  obtain ⟨taken, rfl⟩ := (leads.above genuine).suffix
  have halts := leads.halts genuine step []
  have stop : (taken ++ rest)[([] ++ (taken ++ rest)).length - rest.length]? = rest[0]? := by
    rw [nil_append, length_append, Nat.add_sub_cancel]
    exact getElem?_behind taken rest 0
  rw [← stop]
  exact Grammar.read_lead halts (stop ▸ leads.noModifier)

/-- In step, a statement in a block is told by the token behind the items. -/
theorem read_blockStatement (leads : Leads rest items ahead) (genuine : ∀ t ∈ ahead, t.Genuine)
    (step : inStep items = true) (none : fitAll [.cls .identifier, ":"] rest = false) (n : Nat) :
    Rule.blockStatement.readWithin (n + 1) ahead =
      (Body.led (.passed rest[0]? (items.any LeadItem.isUse))).read (readWithin n) ahead := by
  have unlocked : Pattern.fits ahead[0]? (.word "synchronized") = false := leads.not_synchronized genuine
  change Body.blockStatement.read (readWithin n) ahead = _
  rw [blockStatement_eq, read_monad_bind, read_wouldAccept (cons_ne_nil _ _), leads.unlabelled none,
    andThen_pure, if_neg Bool.false_ne_true, read_monad_bind, read_wouldAccept_one, unlocked,
    andThen_pure, if_neg Bool.false_ne_true, read_monad_bind, leads.read_lead genuine step,
    andThen_pure]

end Leads

/-! ## Declarations of types -/

/-- The words that start the declaration of a type behind its modifiers. -/
def declarers : List Text := Vocabulary.texts ["class", "enum", "interface", "@"]

/-- None of them starts a type. -/
theorem not_declarer {found : Option Token} (worded : ∀ t ∈ found, t.Worded) (starts : Parser.StartsType found) :
    isAmong found declarers = false := by
  cases found with
  | none => rfl
  | some t =>
    refine not_isAmong fun mem => ?_
    rcases starts with basic | name
    · have known := (worded t rfl).basicType.1 (cls_of_basicType basic)
      exact (by decide : ∀ word ∈ declarers, word ∉ Vocabulary.basicTypes) _ mem known
    · have isName := (worded t rfl).identifier.1 (cls_of_identifier name)
      exact not_isName ((by decide : ∀ word ∈ declarers, word ∈ nameless) _ mem) isName

theorem worded_head (worded : ∀ t ∈ ahead, t.Worded) {t : Token} (first : t ∈ ahead[0]?) : t.Worded :=
  worded t (mem_of_getElem? first)

theorem Leads.read_declaration (leads : Leads rest items ahead) (genuine : ∀ t ∈ ahead, t.Genuine)
    (worded : ∀ t ∈ ahead, t.Worded) (step : inStep items = true) (declares : isAmong rest[0]? declarers = true)
    (n : Nat) :
    Rule.blockStatement.readWithin (n + 1) ahead = Rule.classOrInterfaceDeclaration.readWithin n ahead := by
  have behind : ∀ t ∈ rest, t.Worded := fun t mem => worded t ((leads.above genuine).suffix.subset mem)
  have none : fitAll [.cls .identifier, ":"] rest = false := by
    have noName : Pattern.fits rest[0]? (.cls .identifier) = false := by
      refine Bool.eq_false_iff.2 fun isName => ?_
      rw [not_declarer (fun _ => worded_head behind) (.inr isName)] at declares
      cases declares
    rw [fitAll, noName, Bool.false_and]
  rw [leads.read_blockStatement genuine step none]
  exact (congrArg (Routine.read _ · ahead) (if_pos declares)).trans (read_parse _ _)

/-! ## Declarations of variables -/

theorem gives_variableDeclarator {declarator : Tree}
    (gives : (Rule.variableDeclarator.readWithin n ahead).Gives declarator rest) :
    isOf ahead[0]? .identifier = true := by
  obtain ⟨n, rfl, gives⟩ := gives_rule gives
  obtain ⟨name, mid, first, -⟩ := gives_bind gives
  obtain ⟨u, rfl, isName, -⟩ := gives_identifier (gives_parse first)
  exact isOf_of_cls isName rfl

theorem gives_variableDeclarators {declarators : List Tree}
    (gives : (Rule.variableDeclarators.readWithin n ahead).Gives declarators rest) :
    isOf ahead[0]? .identifier = true := by
  obtain ⟨n, rfl, gives⟩ := gives_rule gives
  cases gives_many gives with
  | last item =>
    obtain ⟨_, _, first, -⟩ := gives_bind item
    exact gives_variableDeclarator (gives_parse first)
  | more item =>
    obtain ⟨_, _, first, -⟩ := gives_bind item
    exact gives_variableDeclarator (gives_parse first)

/-- A type in front of a variable is no label. -/
theorem type_unlabelled {mid : List Token} {type : Tree} (worded : ∀ t ∈ rest, t.Worded)
    (typed : (Rule.type.readWithin n rest).Gives type mid) (named : isOf mid[0]? .identifier = true) :
    fitAll [.cls .identifier, ":"] rest = false := by
  obtain ⟨type, -, spells⟩ := gives_type worded typed
  obtain ⟨word, words, flat, second⟩ := type.flatten_cons
  rw [flat] at spells
  obtain ⟨t, later, rfl, -, spells⟩ := spells.of_cons
  have noColon : Pattern.fits later[0]? (.word (ofString ":")) = false := by
    cases words with
    | nil =>
      obtain rfl := spells.eq_of_nil
      cases later with
      | nil => cases named
      | cons u later =>
        have isName := (worded u (mem_cons_of_mem _ mem_cons_self)).identifier.1 (cls_of_identifier named)
        exact unfit_word fun colon => not_isName (by decide) (colon ▸ isName)
    | cons word words =>
      obtain ⟨u, later, rfl, rfl, -⟩ := spells.of_cons
      exact unfit_word fun same => absurd (same ▸ second u.value rfl) (by decide)
  simp only [fitAll, tail_cons, noColon, Bool.false_and, Bool.and_false]

namespace Leads

variable {t : Tree} {later : List Token}

/-- The declaration of a variable has its type behind the items. -/
theorem type_of_gives (leads : Leads rest items ahead)
    (genuine : ∀ t ∈ ahead, t.Genuine)
    (gives : (Rule.localVariableDeclarationStatement.readWithin n ahead).Gives t later) :
    ∃ m type mid, (Rule.type.readWithin m rest).Gives type mid ∧ isOf mid[0]? .identifier = true := by
  rcases n with _ | _ | n
  · cases gives.result
  · cases gives.result
  · obtain ⟨found, mid, modifiers, gives⟩ := gives_bind gives
    have turns : (Rule.variableModifiers.readWithin (n + 1) ahead).Gives found mid := gives_parse modifiers
    change ((Body.modifiersBy Body.finalModifier).read (readWithin n) ahead).Gives found mid at turns
    rw [read_modifiersBy] at turns
    obtain rfl := leads.eq_of_variableModifiers genuine turns
    obtain ⟨type, mid, typed, gives⟩ := gives_bind gives
    obtain ⟨declarators, _, named, -⟩ := gives_bind gives
    exact ⟨_, type, mid, gives_parse typed, gives_variableDeclarators (gives_parse named)⟩

theorem gives_local (leads : Leads rest items ahead)
    (genuine : ∀ t ∈ ahead, t.Genuine) (worded : ∀ t ∈ ahead, t.Worded) (step : inStep items = true)
    (gives : (Rule.localVariableDeclarationStatement.readWithin n ahead).Gives t later) :
    (Rule.blockStatement.readWithin (n + 1) ahead).Gives (t.placeAt (positionOf rest[0]?)) later := by
  have behind : ∀ t ∈ rest, t.Worded := fun t mem => worded t ((leads.above genuine).suffix.subset mem)
  obtain ⟨m, type, mid, typed, named⟩ := leads.type_of_gives genuine gives
  have placed : ((Body.localVariableAt rest[0]?).read (readWithin n) ahead).Gives
      (t.placeAt (positionOf rest[0]?)) later :=
    gives_of_bind (by rwa [read_parse]) ⟨rfl, rfl⟩
  have starts := Parser.startsType_of_type typed.result
  have other := not_declarer (fun _ => worded_head behind) starts
  rw [leads.read_blockStatement genuine step (type_unlabelled behind typed named), Body.led]
  change (Routine.read _ (if isAmong rest[0]? declarers = true then _ else _) ahead).Gives _ _
  rw [if_neg (by rw [other]; exact Bool.false_ne_true)]
  split
  · exact placed
  · rename_i plain
    have name : isOf rest[0]? .identifier = true :=
      starts.resolve_left fun basic => plain (by rw [basic, Bool.or_true])
    rw [name]
    exact attempt_gives placed _

end Leads

end

end JavaSource.Grammar

namespace JavaSource.Parser

open Grammar Lexer

/-- **The look-ahead in front of a statement and the rule for modifiers.** In front of `final` and annotations that the
rule takes, the look-ahead stops at the token where the rule stops if and only if it keeps in step: each annotation
without arguments is followed by `final`, and each list of arguments closes as many parentheses as it opens. Then the
declaration of a class, an enumeration, an interface or an annotation type is read as such, to whatever depth, and the
declaration of a variable is at the place of the first token of its type. -/
theorem lead_stops_iff_inStep {p q : Parser} {ahead rest : List Token} {found : Modifiers}
    (genuine : ∀ t ∈ ahead, t.Genuine) (worded : ∀ t ∈ ahead, t.Worded) (facing : p.Facing ahead)
    (taken : p.run (follow plainly .modifiers) = (.ok found, q)) (left : q.Facing rest)
    (finals : ∀ m ∈ found.modifiers, m = Text.ofString "final") : ∃ items, Leads rest items ahead ∧
      ((p.run (exec plainly leadIndex)).1 = .ok (ahead.length - rest.length) ↔ inStep items = true) ∧
      (inStep items = true →
        (p.run (exec plainly Body.lead)).1 = .ok (.passed rest[0]? (items.any LeadItem.isUse)) ∧
        (isAmong rest[0]? declarers = true → ∀ n,
          (p.run (Rule.blockStatement.run plainly (n + 1))).1 =
            (p.run (Rule.classOrInterfaceDeclaration.run plainly n)).1) ∧
        ∀ n t, (p.run (Rule.localVariableDeclarationStatement.run plainly n)).1 = .ok t →
          (p.run (Rule.blockStatement.run plainly (n + 1))).1 = .ok (t.placeAt (positionOf rest[0]?)) ∧
            ∃ type later, Rule.Gives .type rest type later) := by
  have gives : (Rule.modifiers.reads ahead).Gives found rest := by
    refine facing.gives ?_ ?_
    · rw [taken]
    · rw [taken]
      exact left
  obtain ⟨items, leads⟩ := leads_of_modifiers gives finals
  refine ⟨items, leads, ?_, fun step => ⟨?_, fun declares n => ?_, fun n t read => ?_⟩⟩
  · rw [(exec_does orderly_leadIndex facing).result, leadIndex_eq_iff]
    exact ⟨fun ⟨later, halts⟩ => leads.inStep_of_halts genuine [] halts, fun step => ⟨_, leads.halts genuine step []⟩⟩
  · rw [(exec_does orderly_lead facing).result, leads.read_lead genuine step]
  · rw [(does_run (n + 1) .blockStatement facing).result, leads.read_declaration genuine worded step declares,
      (does_run n .classOrInterfaceDeclaration facing).result]
  · rw [(does_run n .localVariableDeclarationStatement facing).result] at read
    have gives : (Rule.localVariableDeclarationStatement.readWithin n ahead).Gives t _ := ⟨read, rfl⟩
    obtain ⟨m, type, mid, typed, -⟩ := leads.type_of_gives genuine gives
    rw [(does_run (n + 1) .blockStatement facing).result]
    exact ⟨(leads.gives_local genuine worded step gives).result, type, mid, m, typed⟩

/-- Where the rule for modifiers stops, if `final` is the only one. -/
theorem exists_modifiers {tokens rest : List Token}
    (finals : ((ofTokens tokens).run (follow plainly .modifiers)).1.toOption.any
      (fun found => found.modifiers.all (· == Text.ofString "final")) = true)
    (stops : (Rule.modifiers.reads tokens).ahead = rest) :
    ∃ found q, (ofTokens tokens).run (follow plainly .modifiers) = (.ok found, q) ∧ q.Facing rest ∧
      ∀ m ∈ found.modifiers, m = Text.ofString "final" := by
  have left := (follow_does .modifiers (facing_ofTokens tokens)).moved.facing
  rw [stops] at left
  generalize (ofTokens tokens).run (follow plainly .modifiers) = ran at finals left ⊢
  obtain ⟨result, q⟩ := ran
  obtain ⟨found, rfl, finals⟩ := exists_ok_of_any finals
  exact ⟨found, q, rfl, left, fun m mem => eq_of_beq (all_eq_true.1 finals m mem)⟩

/-- An annotation with arguments, and `final`, in front of a class. -/
theorem lead_stops_at_class : ∃ items,
      Leads ((tokensOf "@A(1) final class B \x7b \x7d").drop 6) items (tokensOf "@A(1) final class B \x7b \x7d") ∧
      inStep items = true ∧
      ∀ n, ((ofTokens (tokensOf "@A(1) final class B \x7b \x7d")).run (Rule.blockStatement.run plainly (n + 1))).1 =
        ((ofTokens (tokensOf "@A(1) final class B \x7b \x7d")).run
          (Rule.classOrInterfaceDeclaration.run plainly n)).1 := by
  obtain ⟨finals, stops, index, declares⟩ :
      ((ofTokens (tokensOf "@A(1) final class B \x7b \x7d")).run (follow plainly .modifiers)).1.toOption.any
        (fun found => found.modifiers.all (· == Text.ofString "final")) = true ∧
      (Rule.modifiers.reads (tokensOf "@A(1) final class B \x7b \x7d")).ahead =
        (tokensOf "@A(1) final class B \x7b \x7d").drop 6 ∧
      ((ofTokens (tokensOf "@A(1) final class B \x7b \x7d")).run (exec plainly leadIndex)).1.toOption =
        some ((tokensOf "@A(1) final class B \x7b \x7d").length -
          ((tokensOf "@A(1) final class B \x7b \x7d").drop 6).length) ∧
      isAmong ((tokensOf "@A(1) final class B \x7b \x7d").drop 6)[0]? declarers = true := by decide +kernel
  obtain ⟨found, q, taken, left, finals⟩ := exists_modifiers finals stops
  obtain ⟨items, leads, iff, told⟩ := lead_stops_iff_inStep (tokenize_genuine _ _) (tokenize_worded _ _)
    (facing_ofTokens _) taken left finals
  have step := iff.1 (eq_ok_of_toOption index)
  exact ⟨items, leads, step, (told step).2.1 declares⟩

/-- Behind an annotation without arguments a token is passed over unseen: the look-ahead does not stop where the rule
for modifiers does, a class is not read, and a variable is not at the place of its type. -/
theorem lead_passes_unseen : (¬ ∀ (tokens rest : List Token) (q : Parser) (found : Modifiers),
      (ofTokens tokens).run (follow plainly .modifiers) = (.ok found, q) → q.Facing rest →
      (∀ m ∈ found.modifiers, m = Text.ofString "final") →
      ((ofTokens tokens).run (exec plainly leadIndex)).1 = .ok (tokens.length - rest.length)) ∧
    (¬ ∀ tokens : List Token,
      ((ofTokens tokens).run (follow plainly .classOrInterfaceDeclaration)).1.toBool = true →
      ((ofTokens tokens).run (follow plainly .blockStatement)).1.toBool = true) ∧
    (¬ ∀ (tokens rest : List Token) (q : Parser) (found : Modifiers) (t : Tree),
      (ofTokens tokens).run (follow plainly .modifiers) = (.ok found, q) → q.Facing rest →
      (∀ m ∈ found.modifiers, m = Text.ofString "final") →
      ((ofTokens tokens).run (follow plainly .blockStatement)).1 = .ok t → t.isA .localVariableDeclaration = true →
      t.position? = positionOf rest[0]?) := by
  refine ⟨fun all => ?_, fun all => ?_, fun all => ?_⟩
  · obtain ⟨tokens, finals, stops, index, length⟩ : ∃ tokens : List Token,
        ((ofTokens tokens).run (follow plainly .modifiers)).1.toOption.any
          (fun found => found.modifiers.all (· == Text.ofString "final")) = true ∧
        (Rule.modifiers.reads tokens).ahead = tokens.drop 2 ∧
        ((ofTokens tokens).run (exec plainly leadIndex)).1.toOption = some 3 ∧ tokens.length = 6 :=
      ⟨tokensOf "@A class B \x7b \x7d", by decide +kernel⟩
    obtain ⟨found, q, taken, left, finals⟩ := exists_modifiers finals stops
    rw [all tokens _ q found taken left finals, length_drop, length] at index
    cases index
  · obtain ⟨tokens, declares, fails⟩ : ∃ tokens : List Token,
        ((ofTokens tokens).run (follow plainly .classOrInterfaceDeclaration)).1.toBool = true ∧
        ((ofTokens tokens).run (follow plainly .blockStatement)).1.toBool = false :=
      ⟨tokensOf "@A class B \x7b \x7d", by decide +kernel⟩
    cases fails.symm.trans (all tokens declares)
  · obtain ⟨tokens, finals, stops, other⟩ : ∃ tokens : List Token,
        ((ofTokens tokens).run (follow plainly .modifiers)).1.toOption.any
          (fun found => found.modifiers.all (· == Text.ofString "final")) = true ∧
        (Rule.modifiers.reads tokens).ahead = tokens.drop 2 ∧
        ((ofTokens tokens).run (follow plainly .blockStatement)).1.toOption.any (fun t =>
          t.isA .localVariableDeclaration && t.position? != positionOf (tokens.drop 2)[0]?) = true :=
      ⟨tokensOf "@A int x;", by decide +kernel⟩
    obtain ⟨found, q, taken, left, finals⟩ := exists_modifiers finals stops
    obtain ⟨t, read, told⟩ := exists_ok_of_any other
    rw [Bool.and_eq_true] at told
    have same := all tokens _ q found t taken left finals read told.1
    rw [same, bne_self_eq_false] at told
    exact absurd told.2 Bool.false_ne_true

end JavaSource.Parser
