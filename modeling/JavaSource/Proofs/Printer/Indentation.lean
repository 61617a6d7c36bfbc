import JavaSource.Printer.Unparse

/-!
# The level of indentation

What is printed in a block is printed one level further in, and behind the block the level is what it was before. So an
action that prints something leaves the level as it found it, and one that fails leaves it there or raised: `Steady`.
Every form of tree is steady if the printing of its parts is (`form_steady`), and so is the printing of every tree
(`printWithin_steady`), by induction on the number of levels that a tree may have. Trees that are printed one after the
other at a level are therefore all printed at this level.
-/

namespace JavaSource.Printer

section

variable {α β : Type}

/-- What an action gives at a level of indentation, and the level after it. -/
def runAt (action : PrintM α) (level : Int) : Except TreeFailure α × Int := StateT.run (ExceptT.run action) level

variable {action : PrintM α} {f : α → PrintM β}

theorem runAt_bind_ok {level last : Int} {a : α}
    (ran : runAt action level = (.ok a, last)) : runAt (action >>= f) level = runAt (f a) last := by
  rw [runAt] at ran
  simp only [runAt, ExceptT.run_bind, StateT.run_bind, ran]
  rfl

theorem runAt_bind_error {level last : Int} {failure : TreeFailure}
    (ran : runAt action level = (.error failure, last)) : runAt (action >>= f) level = (.error failure, last) := by
  rw [runAt] at ran
  simp only [runAt, ExceptT.run_bind, StateT.run_bind, ran]
  rfl

/-- The action leaves the level of indentation as it found it; where it fails, it may leave it raised. -/
structure Steady (action : PrintM α) : Prop where
  kept : ∀ level a, (runAt action level).1 = .ok a → (runAt action level).2 = level
  raised : ∀ level, level ≤ (runAt action level).2

namespace Steady

/-- An action that does nothing to the level. -/
theorem of_same (same : ∀ level, (runAt action level).2 = level) : Steady action :=
  ⟨fun level _ _ => same level, fun level => Int.le_of_eq (same level).symm⟩

theorem pure (a : α) : Steady (Pure.pure a : PrintM α) := of_same fun _ => rfl

theorem throw (failure : TreeFailure) : Steady (MonadExcept.throw failure : PrintM α) := of_same fun _ => rfl

theorem bind (first : Steady action) (second : ∀ a, Steady (f a)) :
    Steady (action >>= f) := by
  refine ⟨fun level b ok => ?_, fun level => ?_⟩
  all_goals
    have kept := first.kept level
    have raised := first.raised level
    rcases ran : runAt action level with ⟨failure | a, last⟩
    all_goals rw [ran] at kept raised
  · rw [runAt_bind_error ran] at ok
    cases ok
  · obtain rfl : last = level := kept a rfl
    rw [runAt_bind_ok ran] at ok ⊢
    exact (second a).kept last b ok
  · rw [runAt_bind_error ran]
    exact raised
  · rw [runAt_bind_ok ran]
    exact Int.le_trans raised ((second a).raised last)

theorem map (f : α → β) (steady : Steady action) : Steady (f <$> action) := by
  rw [map_eq_pure_bind]
  exact steady.bind fun a => pure (f a)

/-- What is done one level further in has lowered the level again behind, unless it failed. -/
theorem indented (inside : Steady action) : Steady (Printer.indented action) := by
  have raise (level : Int) : runAt (modify (· + 1) : PrintM Unit) level = (.ok (), level + 1) := rfl
  have lower (level : Int) : runAt (modify (· - 1) : PrintM Unit) level = (.ok (), level - 1) := rfl
  have ends (level : Int) : (∃ a, runAt (Printer.indented action) level = (.ok a, level)) ∨
      ∃ failure last, runAt (Printer.indented action) level = (.error failure, last) ∧ level + 1 ≤ last := by
    have kept := inside.kept (level + 1)
    have raised := inside.raised (level + 1)
    rw [Printer.indented, runAt_bind_ok (raise level)]
    rcases ran : runAt action (level + 1) with ⟨failure | a, last⟩
    all_goals rw [ran] at kept raised
    · rw [runAt_bind_error ran]
      exact .inr ⟨failure, last, rfl, raised⟩
    · obtain rfl : last = level + 1 := kept a rfl
      rw [runAt_bind_ok ran, runAt_bind_ok (lower _), Int.add_sub_cancel]
      exact .inl ⟨a, rfl⟩
  refine ⟨fun level a ok => ?_, fun level => ?_⟩
  · rcases ends level with ⟨b, ran⟩ | ⟨failure, last, ran, -⟩
    · rw [ran]
    · rw [ran] at ok
      cases ok
  · rcases ends level with ⟨b, ran⟩ | ⟨failure, last, ran, le⟩
    · exact Int.le_of_eq (congrArg Prod.snd ran).symm
    · rw [ran]
      exact Int.le_trans (Int.le_add_of_nonneg_right Int.one_nonneg) le

end Steady

/-! ## Parts -/

theorem lift_steady (outcome : Except TreeFailure α) : Steady (lift outcome) := by
  cases outcome with
  | ok a => exact .pure a
  | error failure => exact .throw failure

theorem attr_steady (t : Tree) (a : Attr) : Steady (attr t a) := lift_steady _

theorem shownAttr_steady (t : Tree) (a : Attr) : Steady (shownAttr t a) := (attr_steady t a).bind fun _ => .pure _

theorem textOf_steady (t : Tree) : Steady (textOf t) := by
  cases t with
  | text s => exact .pure s
  | _ => exact .throw _

theorem indentation_steady : Steady indentation := .of_same fun _ => rfl

theorem textsOf_steady {action : Tree → PrintM Text} (items : ∀ x, Steady (action x)) (xs : List Tree) :
    Steady (textsOf action xs) := by
  induction xs with
  | nil => exact .pure _
  | cons x xs ih => exact (items x).bind fun _ => ih.bind fun _ => .pure _

theorem each_steady {action : Tree → PrintM Text} (items : ∀ x, Steady (action x)) (t : Tree) :
    Steady (each t action) :=
  (lift_steady _).bind fun elements => textsOf_steady items elements

theorem foldlM_steady {f : β → α → PrintM β} (items : ∀ b x, Steady (f b x)) (xs : List α) (b : β) :
    Steady (xs.foldlM f b) := by
  induction xs generalizing b with
  | nil => exact .pure b
  | cons x xs ih =>
    rw [List.foldlM_cons]
    exact (items b x).bind fun c => ih c

theorem texts_steady (t : Tree) : Steady (texts t) := by
  refine (lift_steady _).bind fun elements => ?_
  induction elements with
  | nil => exact .pure _
  | cons x xs ih =>
    rw [List.mapM_cons]
    exact (textOf_steady x).bind fun _ => ih.bind fun _ => .pure _

theorem sortedModifiers_steady (t : Tree) : Steady (sortedModifiers t) :=
  (attr_steady t _).bind fun _ => (texts_steady _).bind fun _ => .pure _

/-! ## What is done to a printed part -/

theorem followedBy_steady (printed : Tree) (s : Text) : Steady (followedBy printed s) := by
  unfold followedBy
  split <;> first
    | exact .pure _
    | exact .throw _

theorem joinedWith_steady (printed more : Tree) : Steady (joinedWith printed more) := by
  unfold joinedWith
  split
  · exact .pure _
  · exact (lift_steady _).bind fun _ => .pure _
  · exact .throw _

theorem shortenedBy_steady (n : Nat) (printed : Tree) : Steady (shortenedBy n printed) := by
  unfold shortenedBy
  split <;> first
    | exact .pure _
    | exact .throw _

theorem inner_steady (printed : Tree) : Steady (inner printed) := by
  unfold inner
  split <;> first
    | exact .pure _
    | exact .throw _

theorem brackets_steady (dimensions : Tree) : Steady (brackets dimensions) := by
  unfold brackets
  split
  · split <;> first
      | exact .pure _
      | exact .throw _
  · exact .pure _

theorem firstOf_steady (t : Tree) : Steady (firstOf t) := by
  unfold firstOf
  split <;> first
    | exact .pure _
    | exact .throw _

end

section

variable {print : Print} (parts : ∀ t, Steady (print t))
include parts

theorem textual_steady (t : Tree) : Steady (textual print t) := (parts t).bind textOf_steady

theorem showing_steady (t : Tree) : Steady (showing print t) := (parts t).bind fun _ => .pure _

theorem braced_steady (statements : Tree) : Steady (braced print statements) :=
  indentation_steady.bind fun _ => (each_steady (textual_steady parts) statements).indented.bind fun _ => .pure _

theorem eachOf_steady (t : Tree) (a : Attr) : Steady (eachOf print t a) :=
  (attr_steady t a).bind fun _ => each_steady (textual_steady parts) _

theorem ifChain_steady (n : Nat) (t : Tree) : Steady (ifChain print n t) := by
  induction n generalizing t with
  | zero => exact .throw _
  | succ n ih =>
    refine (attr_steady t _).bind fun _ => (textual_steady parts _).bind fun _ => ?_
    refine (attr_steady t _).bind fun _ => (textual_steady parts _).bind fun _ => (attr_steady t _).bind fun other => ?_
    split
    · refine indentation_steady.bind fun _ => ?_
      split
      · exact (ih other).bind fun _ => .pure _
      · exact (textual_steady parts other).bind fun _ => .pure _
    · exact .pure _

theorem initializers_steady (isFirst : Bool) (xs : List Tree) : Steady (initializers print isFirst xs) := by
  induction xs generalizing isFirst with
  | nil => exact .pure _
  | cons x xs ih =>
    have later (item : Text) : Steady (do let rest ← initializers print false xs; return item ++ rest) :=
      (ih false).bind fun _ => .pure _
    rw [initializers]
    split
    · refine (Steady.indented ?_).bind later
      exact indentation_steady.bind fun _ => (showing_steady parts x).bind fun _ => .pure _
    · exact (showing_steady parts x).bind fun _ => (Steady.pure _).bind later

/-! ## Trees -/

variable {t : Tree} {action : PrintM Tree}

/-- Each kind of node is printed by a steady action. Every form is a sequence of printed parts and of blocks, so the
actions are taken apart down to these. -/
theorem nodeForm_steady {n : Nat} {kind : Kind}
    (found : nodeForm print n t kind = some action) : Steady action := by
  unfold nodeForm nodeForm.text at found
  split at found
  all_goals cases found
  all_goals
    simp only [compilationUnit, classDeclaration, methodDeclaration, formalParameter, referenceType, statementExpression,
      methodInvocation, literal, lambdaExpression, memberReference, binaryOperation, localVariableDeclaration,
      variableDeclaration, variableDeclarator, cast, ifStatement, returnStatement, blockStatement, basicType,
      inferredFormalParameter, methodReference, typeArgument, interfaceDeclaration, classCreator, annotationUse,
      fieldDeclaration, packageDeclaration, importDeclaration, tryStatement, tryResource, arrayInitializer, arraySelector,
      catchClause, catchClauseParameter, assignment, forStatement, enhancedForControl, classReference, arrayCreator,
      documentation, eachOfSome, interfaces, returnType, throwsClause, qualifier, dottedSelectors, anonymousBody,
      selectorLines, optionalBlock]
    repeat' first
      | with_reducible first
        | apply Steady.bind
        | intro _
        | apply attr_steady
        | apply Steady.pure
        | apply shownAttr_steady
        | apply Steady.map
        | apply textOf_steady
        | apply indentation_steady
        | apply showing_steady parts
        | apply followedBy_steady
        | apply joinedWith_steady
        | apply eachOf_steady parts
        | apply textual_steady parts
        | apply braced_steady parts
        | apply shortenedBy_steady
        | apply inner_steady
        | apply Steady.indented
        | apply sortedModifiers_steady
        | apply texts_steady
        | apply lift_steady
        | apply brackets_steady
        | apply firstOf_steady
        | apply ifChain_steady parts
        | apply initializers_steady parts
        | apply each_steady
        | apply textsOf_steady
        | apply foldlM_steady
        | apply Steady.throw
        | apply parts
      | split

omit parts in
theorem tokenForm_steady {cls : TokenClass} (found : tokenForm t cls = some action)
    : Steady action := by
  unfold tokenForm at found
  split at found
  all_goals cases found
  · exact attr_steady t _
  · exact attr_steady t _
  · exact ((attr_steady t _).bind fun _ => (shownAttr_steady t _).bind fun _ => .pure _).map _
  · refine Steady.map _ (indentation_steady.bind fun _ => (shownAttr_steady t _).bind fun _ => ?_)
    exact (attr_steady t _).bind fun _ => .pure _

/-- A tree is printed by a steady action if its parts are. -/
theorem form_steady (n : Nat) (t : Tree) : Steady (form print n t) := by
  unfold form
  dsimp only
  split
  · rename_i kind fields place
    cases found : nodeForm print n (.node kind fields place) kind with
    | none => exact .throw _
    | some action => exact nodeForm_steady parts found
  · rename_i cls value position javadoc fields place
    cases found : tokenForm (.token cls value position javadoc fields place) cls with
    | none => exact .throw _
    | some action => exact tokenForm_steady found
  · exact .throw _

end

/-- **Every tree is printed by a steady action.** The induction is on the number of levels. -/
theorem printWithin_steady (n : Nat) (t : Tree) : Steady (printWithin n t) := by
  induction n generalizing t with
  | zero => exact .throw _
  | succ n ih => exact form_steady ih (n + 1) t

/-! ## One tree after the other -/

/-- Prints trees one after the other, each at the level that the one before has left. -/
def printEach (level : Int) : List Tree → List (Except TreeFailure Tree) × Int
  | [] => ([], level)
  | t :: ts =>
    let rest := printEach (printAt level t).2 ts
    ((printAt level t).1 :: rest.1, rest.2)

/-- **The level of indentation.** A tree that is printed leaves the level as it found it, and one that cannot be printed
does not lower it. So as long as all trees can be printed, each of them is printed as at the first level, and the level
is the first one also at the end. -/
theorem printAt_level (level : Int) (t : Tree) :
    (∀ printed, (printAt level t).1 = .ok printed → (printAt level t).2 = level) ∧
    (∀ failure, (printAt level t).1 = .error failure → level ≤ (printAt level t).2) ∧
    ∀ ts : List Tree, (∀ result ∈ (printEach level ts).1, result.toBool = true) →
      printEach level ts = (ts.map fun t => (printAt level t).1, level) := by
  have steady (t : Tree) := printWithin_steady t.size t
  refine ⟨(steady t).kept level, fun _ _ => (steady t).raised level, fun ts succeed => ?_⟩
  induction ts with
  | nil => rfl
  | cons t ts ih =>
    rw [printEach] at succeed ⊢
    obtain ⟨first, others⟩ := List.forall_mem_cons.1 succeed
    obtain ⟨printed, ok⟩ : ∃ printed, (printAt level t).1 = .ok printed := by
      cases result : (printAt level t).1 with
      | ok printed => exact ⟨printed, rfl⟩
      | error failure =>
        rw [result] at first
        cases first
    have same : (printAt level t).2 = level := (steady t).kept level printed ok
    rw [same] at others ⊢
    rw [ih others, List.map_cons]

def blockOf (statement : Tree) : Tree := .make .blockStatement [(.statements, .list [statement])]

/-- A block in a block, around a statement that can be printed. -/
def returningBlock : Tree :=
  blockOf (blockOf (.make .returnStatement [(.expression, .make .literal [(.value, .text "x")])]))

/-- A block in a block, around a statement that cannot be printed. -/
def loopingBlock : Tree := blockOf (blockOf (.make .whileStatement []))

/-- The level is the same behind both blocks, unless something inside cannot be printed: then it stays raised. -/
theorem printAt_level_blocks :
    (printAt 1 returningBlock).2 = 1 ∧ 1 ≤ (printAt 1 loopingBlock).2 ∧ (printAt 1 loopingBlock).2 = 3 ∧
      printEach 1 [returningBlock, returningBlock] =
        ([returningBlock, returningBlock].map fun t => (printAt 1 t).1, 1) :=
  ⟨(printAt_level 1 returningBlock).1 _ rfl, (printAt_level 1 loopingBlock).2.1 _ rfl, rfl,
    (printAt_level 1 returningBlock).2.2 _ (by decide)⟩

end JavaSource.Printer
