import JavaSource.Parser.Unit
import JavaSource.Proofs.Parser.Simulation
import JavaSource.Proofs.Parser.Tokens

/-!
# Compilation units as readings

What the parser makes of the tokens of a compilation unit. Annotations at its start are read, and where no package
follows, the parser goes back to the marker that it set before them; `unitOf_eq_readUnit` says where this marker
leads. Where a package follows, `unitOf_eq_package` goes on behind it.
-/

namespace JavaSource

open Grammar Routine Outcome

namespace Parser

def unitOf (tokens : List Token) : Except ParseFailure Tree :=
  ((ofTokens tokens).run (compilationUnit plainly)).1

def leading (ahead : List Token) : Outcome (Option (List Tree)) :=
  leadingAnnotations.read Rule.reads ahead

def packageOf (annotations : Option (List Tree)) (first start : Option Token) (name : Text) : Tree :=
  (Tree.make .packageDeclaration
    [(.annotations, .ofList? annotations), (.name, .text name), (.documentation, .ofText? (javadocOf first))]).placeAt
      (positionOf start)

/-- A package declaration from its name on, behind annotations and in front of a semicolon. -/
def packageNamed (annotations : Option (List Tree)) (first : Option Token) : ParseM Tree := do
  let start ← look 0
  let name ← follow plainly .qualifiedIdentifier
  discard <| exec plainly (accept [";"])
  return packageOf annotations first start name

def readPackage (annotations : Option (List Tree)) (first : Option Token) (ahead : List Token) : Outcome Tree :=
  (Rule.qualifiedIdentifier.reads ahead).andThen fun name rest =>
    ((accept [";"]).read Rule.reads rest).andThen fun _ rest =>
      { result := .ok (packageOf annotations first ahead[0]? name), ahead := rest }

/-- The failure of a type declaration, in front of the given token: to come to the end inside it is a syntax
error. -/
def typeFailure (found : Option Token) : ParseFailure → ParseFailure
  | .endOfInput => .illegal "Unexpected end of input" found
  | failure => failure

def readType (ahead : List Token) : Outcome (Option Tree) :=
  let o := Rule.typeDeclaration.reads ahead
  { o with result := o.result.mapError (typeFailure o.ahead[0]?) }

/-- How one more type declaration is read, unless there are no more tokens. -/
def typeStep (types : List Tree) (ahead : List Token) : Outcome (List Tree × Bool) :=
  match ahead[0]? with
  | none => { result := .ok (types, false), ahead }
  | some _ => (readType ahead).andThen fun found ahead =>
    match found with
    | some type => { result := .ok (type :: types, true), ahead }
    | none => { result := .ok (types, true), ahead }

def readTypes (ahead : List Token) : Outcome (List Tree) :=
  (repeated typeStep (ahead.length + 2) [] ahead).andThen fun types ahead =>
    { result := .ok types.reverse, ahead }

def readRest (ahead : List Token) : Outcome (List Tree × List Tree) :=
  (importDeclarations.read Rule.reads ahead).andThen fun imports ahead =>
    (readTypes ahead).andThen fun types ahead => { result := .ok (imports, types), ahead }

/-- How imports and type declarations are read, behind the package declaration. -/
def readUnit (package : Tree) (ahead : List Token) : Outcome Tree :=
  (readRest ahead).andThen fun (imports, types) ahead =>
    { result := .ok (.make .compilationUnit
        [(.package, package), (.imports, .list imports), (.types, .list types)]), ahead }

/-! ## The parser does this -/

variable {failure : ParseFailure} {t : Token} {later : List Token}

section Runs

variable {α β : Type} {p : Parser} {ahead : List Token}

theorem does_readType (facing : p.Facing ahead) : p.Does (nextTypeDeclaration plainly) (readType ahead) := by
  have told := does_outcome (follow_does .typeDeclaration facing)
  have does : p.Does (nextTypeDeclaration plainly) _ := does_bind told
      (g := fun found ahead => { result := found.mapError (typeFailure ahead[0]?), ahead })
      fun found q facing => by
    cases found with
    | ok declaration => exact does_pure facing _
    | error failure =>
      cases failure with
      | endOfInput => exact exec_does (orderly_illegal _) facing
      | _ => exact does_throw facing _
  rw [andThen_ok rfl] at does
  exact does

theorem does_look_zero (facing : p.Facing ahead) : p.Does (look 0) (.ok ahead[0]? ahead) := by
  have looked : p.Does (look 0) ((lookAt 0).read Rule.reads ahead) := does_look facing (Int.le_refl 0)
  exact looked

theorem does_typeStep (types : List Tree) (facing : p.Facing ahead) : p.Does (do
      match ← look 0 with
      | none => return (types, false)
      | some _ =>
        match ← nextTypeDeclaration plainly with
        | some declaration => return (declaration :: types, true)
        | none => return (types, true)) (typeStep types ahead) := by
  refine does_bind_plain (does_look_zero facing) fun q facing => ?_
  rw [typeStep]
  cases ahead[0]? with
  | none => exact does_pure facing _
  | some t =>
    refine does_bind (does_readType facing) fun found q facing => ?_
    cases found <;> exact does_pure facing _

theorem does_readTypes (facing : p.Facing ahead) : p.Does (typeDeclarations plainly) (readTypes ahead) := by
  rw [readTypes, ← facing.turns_eq]
  refine does_get (does_bind (does_iterate (fun types _ _ => does_typeStep types) _ [] facing) ?_)
  exact fun types q facing => does_pure facing types.reverse

variable {inText : Bool}

theorem orderly_leadingAnnotations : leadingAnnotations.OrderlyIn inText := by
  refine orderly_bind orderly_annotationAt_zero fun starts => ?_
  exact orderly_ite (orderly_map (orderly_parse _)) (orderly_pure _)

theorem does_leading (facing : p.Facing ahead) : p.Does (exec plainly leadingAnnotations) (leading ahead) :=
  exec_does orderly_leadingAnnotations facing

theorem leading_within (ahead : List Token) : (leading ahead).Within ahead :=
  leadingAnnotations.reads_within ahead

/-- Where the annotations cannot be read, neither can a package declaration. -/
theorem package_error (facing : p.Facing ahead)
    (failed : (leading ahead).result = .error failure) : (p.run (packageDeclaration plainly)).1 = .error failure := by
  have pushed : p.run push = (.ok (), p.marked) := rfl
  have run_eq : p.run (packageDeclaration plainly) = _ := run_bind p push _
  rw [pushed] at run_eq
  obtain ⟨q, moved, run_eq'⟩ := (does_look_zero facing.marked).run_bind_ok rfl _
  have run_eq := congrArg Prod.fst (run_eq.trans run_eq')
  have stopped := (does_leading moved.facing).result.trans failed
  exact run_eq.trans (run_bind_error stopped _)

variable {annotations : Option (List Tree)}

/-- Where no package follows the annotations, the parser goes back to the marker before them. -/
theorem does_package (facing : p.Facing ahead) (ok : (leading ahead).result = .ok annotations)
    (noPackage : isWord (leading ahead).ahead[0]? "package" = false) :
    p.Does (packageDeclaration plainly) (.ok .null ((leading ahead).mark ahead)) := by
  have pushed : p.run push = (.ok (), p.marked) := rfl
  have unfit : Pattern.fits (leading ahead).ahead[0]? (.word "package") = false := noPackage
  have run_eq : p.run (packageDeclaration plainly) = _ := run_bind p push _
  rw [pushed] at run_eq
  obtain ⟨q₁, moved₁, run_eq₁⟩ := (does_look_zero facing.marked).run_bind_ok rfl _
  obtain ⟨q₂, moved₂, run_eq₂⟩ := (does_leading moved₁.facing).run_bind_ok ok _
  have tested := exec_does (orderly_tryAccept ["package"]) moved₂.facing
  rw [read_tryAccept_unfit unfit] at tested
  obtain ⟨q₃, moved₃, run_eq₃⟩ := tested.run_bind_ok rfl _
  have run_eq := run_eq.trans (run_eq₁.trans (run_eq₂.trans run_eq₃))
  have moved : p.marked.Moved q₃ (leading ahead).ahead (leading ahead).handed := by
    have moved := (moved₁.trans moved₂).trans moved₃
    rwa [Option.none_or, Option.or_none] at moved
  rw [if_neg Bool.false_ne_true, run_pop (moved.saved_marked facing)] at run_eq
  exact .of_run run_eq (moved.back facing (leading_within ahead))

/-- Where a package follows the annotations, the marker before them is given up. -/
theorem run_package (facing : p.Facing ahead)
    (ok : (leading ahead).result = .ok annotations) (left : (leading ahead).ahead = t :: later)
    (word : isWord (some t) "package" = true) : ∃ q : Parser, q.Facing later ∧
      p.run (packageDeclaration plainly) = q.run (packageNamed annotations ahead[0]?) := by
  have pushed : p.run push = (.ok (), p.marked) := rfl
  have fits : Pattern.fits (some t) (.word "package") = true := word
  have run_eq : p.run (packageDeclaration plainly) = _ := run_bind p push _
  rw [pushed] at run_eq
  obtain ⟨q₁, moved₁, run_eq₁⟩ := (does_look_zero facing.marked).run_bind_ok rfl _
  obtain ⟨q₂, moved₂, run_eq₂⟩ := (does_leading moved₁.facing).run_bind_ok ok _
  have tested := exec_does (orderly_tryAccept ["package"]) moved₂.facing
  rw [left, read_tryAccept_cons, if_pos fits] at tested
  obtain ⟨q₃, moved₃, run_eq₃⟩ := tested.run_bind_ok rfl _
  have run_eq := run_eq.trans (run_eq₁.trans (run_eq₂.trans run_eq₃))
  have moved := (moved₁.trans moved₂).trans moved₃
  have saved := moved.saved_marked (o := { result := .ok (), ahead := later, handed := _ }) facing
  rw [if_pos rfl, run_pop saved] at run_eq
  refine ⟨_, ?_, run_eq⟩
  exact ⟨moved.facing.default, moved.facing.marker, moved.facing.drop⟩

theorem does_packageNamed (annotations : Option (List Tree)) (first : Option Token) (facing : p.Facing ahead) :
    p.Does (packageNamed annotations first) (readPackage annotations first ahead) := by
  refine does_bind_plain (does_look_zero facing) fun q facing => ?_
  refine does_bind (follow_does .qualifiedIdentifier facing) fun name q facing => ?_
  have semicolon : q.Does (discard (exec plainly (accept [";"]))) _ :=
    does_map (fun _ => ()) (exec_does (orderly_accept [";"]) facing)
  have named := does_map (fun _ => packageOf annotations first ahead[0]? name) semicolon
  rw [andThen_assoc, map_eq_pure_bind] at named
  exact named

theorem readPackage_within (annotations : Option (List Tree)) (first : Option Token) (ahead : List Token) :
    (readPackage annotations first ahead).Within ahead := by
  refine (Rule.readWithin_within _ .qualifiedIdentifier ahead).andThen fun name => ?_
  exact ((accept [";"]).reads_within _).andThen fun _ => .here _ _

theorem orderly_importDeclarations : importDeclarations.OrderlyIn inText :=
  orderly_whileTrue (orderly_wouldAccept _) (orderly_bind orderly_peek fun _ =>
    orderly_bind (orderly_parse _) fun _ => orderly_pure _)

/-- The parser behind the package declaration. -/
theorem does_rest (facing : p.Facing ahead) (package : Tree) : p.Does (do
      let imports ← exec plainly importDeclarations
      let types ← typeDeclarations plainly
      return Tree.make .compilationUnit [(.package, package), (.imports, .list imports), (.types, .list types)])
      (readUnit package ahead) := by
  rw [readUnit, readRest, andThen_assoc]
  refine does_bind (exec_does orderly_importDeclarations facing) fun imports q facing => ?_
  rw [andThen_assoc]
  refine does_bind (does_readTypes facing) fun types q facing => ?_
  rw [andThen_pure]
  exact does_pure facing _

/-- The parser in front of a compilation unit without a package declaration. -/
theorem does_unit (facing : p.Facing ahead) (ok : (leading ahead).result = .ok annotations)
    (noPackage : isWord (leading ahead).ahead[0]? "package" = false) :
    p.Does (compilationUnit plainly) (readUnit .null ((leading ahead).mark ahead)) := by
  exact does_bind_plain (does_package facing ok noPackage) fun q facing => does_rest facing .null

end Runs

variable {tokens : List Token} {annotations : Option (List Tree)}

/-- A compilation unit without a package declaration: after the annotations at its start, it is read from the
marker on that was set before them. -/
theorem unitOf_eq_readUnit (ok : (leading tokens).result = .ok annotations)
    (noPackage : isWord (leading tokens).ahead[0]? "package" = false) :
    unitOf tokens = (readUnit .null ((leading tokens).mark tokens)).result :=
  (does_unit (facing_ofTokens tokens) ok noPackage).result

theorem unitOf_eq_readRest (ok : (leading tokens).result = .ok annotations)
    (noPackage : isWord (leading tokens).ahead[0]? "package" = false) :
    unitOf tokens = (readRest ((leading tokens).mark tokens)).result.map fun (imports, types) =>
      .make .compilationUnit [(.package, .null), (.imports, .list imports), (.types, .list types)] := by
  rw [unitOf_eq_readUnit ok noPackage, readUnit]
  cases result : (readRest ((leading tokens).mark tokens)).result with
  | error failure => rw [andThen_error result]; rfl
  | ok read => rw [andThen_ok result]; rfl

/-- A compilation unit with a package declaration, which is read from the name of the package on. -/
theorem unitOf_eq_package
    (ok : (leading tokens).result = .ok annotations) (left : (leading tokens).ahead = t :: later)
    (word : isWord (some t) "package" = true) :
    unitOf tokens = ((readPackage annotations tokens[0]? later).andThen readUnit).result := by
  obtain ⟨q, facing, run_eq⟩ := run_package (facing_ofTokens tokens) ok left word
  have does := does_bind (does_packageNamed annotations tokens[0]? facing) fun package q facing =>
    does_rest facing package
  rw [← does.result, run_bind, ← run_eq, ← run_bind]
  rfl

/-- Where the annotations at the start cannot be read, there is no compilation unit. -/
theorem unitOf_eq_error
    (failed : (leading tokens).result = .error failure) : unitOf tokens = .error failure := by
  exact run_bind_error (package_error (facing_ofTokens tokens) failed) _

end Parser

end JavaSource
