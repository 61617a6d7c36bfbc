import JavaSource.Proofs.Layout.Rules
import JavaSource.Proofs.Parser.Unit

/-!
# Compilation units and layout

The parser does not depend on layout: `unitOf_layout`. Where the tokens stand in the source text, and what
documentation stands before them, has no part in whether they are a compilation unit, in the tree that they give
but for its places and documentation, or in where the parser fails and what it says there.
-/

namespace JavaSource.Parser

open Grammar Outcome

/-! ## Parts of a compilation unit -/

section

variable {docs : Bool} {T : Token → Token → Prop} [Pairs docs T] {α : Type} {R : α → α → Prop} {ts us : List Token}

theorem rule_beside (r : Rule) (paired : List.Forall₂ T ts us) : (r.reads ts).Beside T (r.Same docs) (r.reads us) :=
  r.reads_beside Rule.body_alike paired

theorem routine_beside {routine routine' : Routine α} (alike : routine.Alike docs T R routine')
    (paired : List.Forall₂ T ts us) : (routine.read Rule.reads ts).Beside T R (routine'.read Rule.reads us) :=
  alike.read_beside (fun r _ _ => rule_beside r) paired

theorem alike_leadingAnnotations : leadingAnnotations.Alike docs T (Same docs) leadingAnnotations := by
  refine alike_bind_eq (alike_annotationAt 0) fun starts => ?_
  refine alike_ite Iff.rfl ?_ (.pure rfl)
  apply alike_bind (alike_parse .annotations)
  intro annotations annotations' same
  exact .pure (same_some (show Same docs annotations annotations' from same))

theorem package_beside {annotations annotations' : Option (List Tree)} {first first' : Option Token}
    (annotated : Same docs annotations annotations') (found : Option.Rel T first first')
    (paired : List.Forall₂ T ts us) :
    (readPackage annotations first ts).Beside T (Same docs) (readPackage annotations' first' us) := by
  refine (rule_beside .qualifiedIdentifier paired).andThen fun name name' ts us named paired => ?_
  refine (routine_beside (alike_accept _) paired).andThen fun _ _ ts us _ paired => ?_
  refine beside_ok ?_ paired
  cases (show name = name' from named)
  have documented := documentation_same (same_of_rel found)
  simp only [Same, laid_option, laid_list, laid_tree] at annotated
  simp only [Same, packageOf, laid_tree, Tree.plain_placeAt, Tree.plain_make, Tree.plainFields_cons,
    Tree.plainFields_nil, documented, Tree.kept_of_ne (show Attr.annotations ≠ .documentation by decide),
    Tree.plain_ofList?, annotated]

theorem alike_importDeclarations : importDeclarations.Alike docs T (Same docs) importDeclarations := by
  apply alike_whileTrue (alike_wouldAccept _)
  apply alike_bind_same alike_peek
  intro start start' _
  exact alike_placeAt (alike_parse .importDeclaration) start start'

theorem type_beside (paired : List.Forall₂ T ts us) : (readType ts).Beside T (Same docs) (readType us) := by
  have declared := rule_beside .typeDeclaration paired
  simp only [readType]
  generalize Rule.typeDeclaration.reads ts = o, Rule.typeDeclaration.reads us = o' at declared
  obtain ⟨result, ahead, handed⟩ := o
  obtain ⟨result', ahead', handed'⟩ := o'
  obtain ⟨same, left, marked⟩ := declared
  refine ⟨?_, left, marked⟩
  cases same with
  | ok same => exact .ok same
  | error same =>
    rename_i reason _
    cases same with
    | illegal description found => exact .error (.illegal description found)
    | other _ notIllegal =>
      cases reason with
      | endOfInput => exact .error (.illegal _ (rel_getElem? left 0))
      | illegal description found => cases notIllegal
      | _ => exact .error (.other _ rfl)

theorem types_beside (paired : List.Forall₂ T ts us) : (readTypes ts).Beside T (Same docs) (readTypes us) := by
  rw [readTypes, readTypes, paired.length_eq]
  refine (repeated_beside (S := Same docs) ?_ _ rfl paired).andThen fun types types' ts us same paired =>
    beside_ok (same_reverse same) paired
  intro read read' ts us same paired
  cases paired with
  | nil => exact beside_ok ⟨same, rfl⟩ .nil
  | cons here paired =>
    rw [typeStep, typeStep, List.getElem?_cons_zero, List.getElem?_cons_zero]
    refine (type_beside (.cons here paired)).andThen fun found found' ts us declared paired => ?_
    cases found with
    | none =>
      cases found' with
      | none => exact beside_ok ⟨same, rfl⟩ paired
      | some declaration => cases declared
    | some declaration =>
      cases found' with
      | none => cases declared
      | some declaration' => exact beside_ok ⟨same_cons (Option.some.inj declared) same, rfl⟩ paired

theorem rest_beside {package package' : Tree} (packages : Same docs package package') (paired : List.Forall₂ T ts us) :
    (readUnit package ts).Beside T (Same docs) (readUnit package' us) := by
  rw [readUnit, readUnit, readRest, readRest, andThen_assoc, andThen_assoc]
  refine (routine_beside alike_importDeclarations paired).andThen fun imports imports' ts us imported paired => ?_
  rw [andThen_assoc, andThen_assoc]
  refine (types_beside paired).andThen fun types types' ts us typed paired => ?_
  rw [andThen_pure, andThen_pure]
  refine beside_ok ?_ paired
  simp only [Same, laid_tree, laid_list] at packages imported typed
  simp [Same, Tree.kept, packages, imported, typed]

/-- **A compilation unit** is read in the same way from tokens that are paired. -/
theorem unitOf_beside (paired : List.Forall₂ T ts us) : SameResult T (Same docs) (unitOf ts) (unitOf us) := by
  have led : (leading ts).Beside T (Same docs) (leading us) := routine_beside alike_leadingAnnotations paired
  have marked := led.mark paired
  obtain ⟨same, left, -⟩ := led
  generalize ok : (leading ts).result = result, ok' : (leading us).result = result' at same
  cases same with
  | error same =>
    rw [unitOf_eq_error ok, unitOf_eq_error ok']
    exact .error same
  | ok annotated =>
    have words := isWord_same (same_of_rel (rel_getElem? left 0)) "package"
    cases package : isWord (leading ts).ahead[0]? "package" with
    | false =>
      rw [unitOf_eq_readUnit ok package, unitOf_eq_readUnit ok' (words.symm.trans package)]
      exact (rest_beside rfl marked).result
    | true =>
      rw [package] at words
      generalize ahead : (leading ts).ahead = here, ahead' : (leading us).ahead = here' at left package words
      cases left with
      | nil => cases package
      | cons _ left =>
        rw [unitOf_eq_package ok ahead package, unitOf_eq_package ok' ahead' words.symm]
        exact ((package_beside annotated (rel_getElem? paired 0) left).andThen fun _ _ _ _ => rest_beside).result

end

/-! ## Whole token lists -/

def AtSameIndex (tokens tokens' : List Token) (t u : Token) : Prop :=
  ∃ i : Nat, tokens[i]? = some t ∧ tokens'[i]? = some u

theorem forall₂_atSameIndex {tokens tokens' : List Token} (length : tokens.length = tokens'.length) :
    List.Forall₂ (AtSameIndex tokens tokens') tokens tokens' := by
  refine List.forall₂_iff_get.2 ⟨length, fun i inside inside' => ⟨i, ?_, ?_⟩⟩
  · exact List.getElem?_eq_getElem inside
  · exact List.getElem?_eq_getElem inside'

/-- **The parser does not depend on layout.** From two lists of tokens that agree in class and value, one by one,
it gives the same tree but for places and documentation, or it fails in the same way: with the same description,
and at tokens of the same index. -/
theorem unitOf_layout {tokens tokens' : List Token}
    (same : List.Forall₂ (fun t u => t.cls = u.cls ∧ t.value = u.value) tokens tokens') :
    SameResult (AtSameIndex tokens tokens') (fun unit unit' => unit.plain false = unit'.plain false)
      (unitOf tokens) (unitOf tokens') := by
  have pairs : Pairs false (AtSameIndex tokens tokens') := by
    refine ⟨fun t u ⟨i, here, there⟩ => ?_⟩
    obtain ⟨inside, rfl⟩ := List.getElem?_eq_some_iff.1 here
    obtain ⟨inside', rfl⟩ := List.getElem?_eq_some_iff.1 there
    obtain ⟨cls, value⟩ := same.get inside inside'
    unfold Same
    exact congrArg₂ (fun c v => (⟨c, v, none, none⟩ : Token)) cls value
  exact unitOf_beside (forall₂_atSameIndex same.length_eq)

def unclosedClass (word name brace : Option Position) (javadoc : Option Text) : List Token :=
  [⟨.keyword, "class", word, javadoc⟩, ⟨.identifier, "A", name, none⟩, ⟨.separator, "\x7b", brace, none⟩]

/-- Wherever its tokens stand, the end of the input is found where the closing brace is missing. -/
theorem unitOf_layout_unclosed : List.Forall₂ (fun t u : Token => t.cls = u.cls ∧ t.value = u.value)
        (unclosedClass (some ⟨1, 1⟩) (some ⟨1, 7⟩) (some ⟨1, 9⟩) (some "/** A. */"))
        (unclosedClass none (some ⟨2, 4⟩) none none) ∧
      SameResult
        (AtSameIndex (unclosedClass (some ⟨1, 1⟩) (some ⟨1, 7⟩) (some ⟨1, 9⟩) (some "/** A. */"))
          (unclosedClass none (some ⟨2, 4⟩) none none))
        (fun unit unit' => unit.plain false = unit'.plain false)
        (unitOf (unclosedClass (some ⟨1, 1⟩) (some ⟨1, 7⟩) (some ⟨1, 9⟩) (some "/** A. */")))
        (unitOf (unclosedClass none (some ⟨2, 4⟩) none none)) := by
  have same : List.Forall₂ (fun t u : Token => t.cls = u.cls ∧ t.value = u.value)
      (unclosedClass (some ⟨1, 1⟩) (some ⟨1, 7⟩) (some ⟨1, 9⟩) (some "/** A. */"))
      (unclosedClass none (some ⟨2, 4⟩) none none) :=
    .cons ⟨rfl, rfl⟩ (.cons ⟨rfl, rfl⟩ (.cons ⟨rfl, rfl⟩ .nil))
  exact ⟨same, unitOf_layout same⟩

end JavaSource.Parser
