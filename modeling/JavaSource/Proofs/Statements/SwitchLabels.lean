import JavaSource.Proofs.Annotations.Statements

/-!
# The labels of a switch

The node of a group of a switch holds the values behind `case`, and nothing for a `default`. What stands in front of a
parser says which labels a group has (`SwitchGroup.Stands`), and there is only one way to say it. So of two blocks with
equal nodes the labels are the same exactly if each group that has values has a `default` where the other one has it:
`switchLabels_agree_iff`.
-/

open List

namespace JavaSource.Grammar

inductive SwitchLabel where
  | value (value : Tree)
  | default

/-- A group: its labels, and the statements behind them. -/
structure SwitchGroup where
  labels : List SwitchLabel
  statements : List Tree

def SwitchLabel.value? : SwitchLabel → Option Tree
  | value v => some v
  | default => none

namespace SwitchGroup

def values (g : SwitchGroup) : List Tree := g.labels.filterMap SwitchLabel.value?

def node (g : SwitchGroup) : Tree :=
  .make .switchStatementCase [(.caseLabels, .list g.values), (.statements, .list g.statements)]

def HasDefault (g : SwitchGroup) : Prop := .default ∈ g.labels

/-- The two groups have the same values in the same order, apart from places, and both have a `default` or neither. -/
def SameLabels (g h : SwitchGroup) : Prop :=
  g.values.map Tree.bare = h.values.map Tree.bare ∧ (g.HasDefault ↔ h.HasDefault)

end SwitchGroup

/-! ## What stands in front of a parser -/

/-- `ItemsWhile test item ahead xs rest`: from `ahead` on the items `xs` come one after the other, each where the test
holds, up to `rest`, where it does not. -/
inductive ItemsWhile {β : Type} (test : List Token → Bool) (item : List Token → β → List Token → Prop) :
    List Token → List β → List Token → Prop
  | done {ahead : List Token} : test ahead = false → ItemsWhile test item ahead [] ahead
  | more {ahead later rest : List Token} {x : β} {xs : List β} : test ahead = true → item ahead x later →
    ItemsWhile test item later xs rest → ItemsWhile test item ahead (x :: xs) rest

def atLabel (ahead : List Token) : Bool := isAmong ahead[0]? Body.labelWords

/-- Whether a statement of a group comes next: neither a label nor the end of the block. -/
def atStatement (ahead : List Token) : Bool := !isAmong ahead[0]? (Text.ofString "\x7d" :: Body.labelWords)

/-- Whether a name and a colon come next. -/
def atConstant (ahead : List Token) : Bool := Pattern.fitAll [.cls .identifier, ":"] ahead

/-- The tokens of a label. A value is a name, where a colon follows it, and any expression otherwise. -/
inductive SwitchLabel.Stands : List Token → SwitchLabel → List Token → Prop
  | name {word name colon : Token} {rest : List Token} : isWord (some word) "case" = true →
    atConstant (name :: colon :: rest) = true → Stands (word :: name :: colon :: rest) (.value (.text name.value)) rest
  | expression {word colon : Token} {mid rest : List Token} {v : Tree} : isWord (some word) "case" = true →
    atConstant mid = false → Rule.Gives .expression mid v (colon :: rest) → isWord (some colon) ":" = true →
    Stands (word :: mid) (.value v) rest
  | default {word colon : Token} {rest : List Token} : isWord (some word) "default" = true →
    isWord (some colon) ":" = true → Stands (word :: colon :: rest) .default rest

/-- The tokens of a group: one label or more, and the statements. -/
inductive SwitchGroup.Stands : List Token → SwitchGroup → List Token → Prop
  | group {ahead mid later rest : List Token} {label : SwitchLabel} {labels : List SwitchLabel}
    {statements : List Tree} : SwitchLabel.Stands ahead label mid →
    ItemsWhile atLabel SwitchLabel.Stands mid labels later →
    ItemsWhile atStatement (Rule.Gives .blockStatement) later statements rest →
    Stands ahead ⟨label :: labels, statements⟩ rest

def GroupsStand (ahead : List Token) (groups : List SwitchGroup) : Prop :=
  ∃ rest, ItemsWhile atLabel SwitchGroup.Stands ahead groups rest

/-! ## Only one way -/

/-- Tokens say what is given, and which of them are left. -/
def Decided {β : Type} (item : List Token → β → List Token → Prop) : Prop :=
  ∀ ⦃ahead : List Token⦄ ⦃x y : β⦄ ⦃rest rest' : List Token⦄, item ahead x rest → item ahead y rest' →
    x = y ∧ rest = rest'

theorem Rule.gives_decided (r : Rule) : Decided r.Gives := fun _ _ _ _ _ gives gives' => gives.unique gives'

variable {β : Type} {test : List Token → Bool}

theorem Decided.itemsWhile {item : List Token → β → List Token → Prop}
    (decided : Decided item) : Decided (ItemsWhile test item) := by
  intro ahead xs ys rest rest' one other
  induction one generalizing ys with
  | done stops =>
    cases other with
    | done => exact ⟨rfl, rfl⟩
    | more goes => cases goes.symm.trans stops
  | more goes here _ ih =>
    cases other with
    | done stops => cases goes.symm.trans stops
    | more _ here' other =>
      obtain ⟨rfl, rfl⟩ := decided here here'
      obtain ⟨rfl, rfl⟩ := ih other
      exact ⟨rfl, rfl⟩

theorem switchLabel_decided : Decided SwitchLabel.Stands := by
  intro ahead x y rest rest' one other
  cases one with
  | name isCase constant =>
    cases other with
    | name => exact ⟨rfl, rfl⟩
    | expression _ noConstant => cases constant.symm.trans noConstant
    | default isDefault => cases isDefault.symm.trans (isWord_ne isCase (by decide))
  | expression isCase noConstant gives =>
    cases other with
    | name _ constant => cases constant.symm.trans noConstant
    | expression _ _ gives' =>
      obtain ⟨rfl, same⟩ := gives.unique gives'
      exact ⟨rfl, (List.cons.inj same).2⟩
    | default isDefault => cases isDefault.symm.trans (isWord_ne isCase (by decide))
  | default isDefault =>
    cases other with
    | name isCase => cases isDefault.symm.trans (isWord_ne isCase (by decide))
    | expression isCase => cases isDefault.symm.trans (isWord_ne isCase (by decide))
    | default => exact ⟨rfl, rfl⟩

theorem switchGroup_decided : Decided SwitchGroup.Stands := by
  rintro ahead _ _ rest rest' ⟨first, labels, statements⟩ ⟨first', labels', statements'⟩
  obtain ⟨rfl, rfl⟩ := switchLabel_decided first first'
  obtain ⟨rfl, rfl⟩ := switchLabel_decided.itemsWhile labels labels'
  obtain ⟨rfl, rfl⟩ := (Rule.gives_decided _).itemsWhile statements statements'
  exact ⟨rfl, rfl⟩

/-! ## What is read -/

section

variable {n : Nat} {ahead rest : List Token}

section

variable {β : Type} {follow : Reader} {test : Routine Bool}
  {holds : List Token → Bool} {routine : Routine β}

/-- One turn of a loop that goes on as long as the test says so. -/
def testedTurn (test : Routine Bool) (routine : Routine β) (acc : List β) : Routine (List β × Bool) := do
  if ← test then
    let x ← routine
    return (x :: acc, true)
  else return (acc, false)

theorem gives_testedTurn (tests : ∀ ahead, test.read follow ahead = .ok (holds ahead) ahead)
    {acc acc' : List β} {more : Bool}
    (gives : ((testedTurn test routine acc).read follow ahead).Gives (acc', more) rest) : holds ahead = more ∧
      if more then ∃ x, acc' = x :: acc ∧ (routine.read follow ahead).Gives x rest else acc' = acc ∧ rest = ahead := by
  rw [testedTurn, Routine.read_monad_bind, tests, Outcome.andThen_pure] at gives
  cases held : holds ahead with
  | true =>
    rw [held, if_pos rfl] at gives
    obtain ⟨x, same, here⟩ := gives_made gives
    cases same
    exact ⟨rfl, x, rfl, here⟩
  | false =>
    rw [held] at gives
    obtain ⟨same, rfl⟩ := gives_pure gives
    cases same
    exact ⟨rfl, rfl, rfl⟩

/-- A loop gives items one after the other. The induction is on the number of turns. -/
theorem gives_itemsWhile (tests : ∀ ahead, test.read follow ahead = .ok (holds ahead) ahead)
    {xs : List β} (gives : ((whileTrue test routine).read follow ahead).Gives xs rest) :
    ItemsWhile holds (fun ahead x rest => (routine.read follow ahead).Gives x rest) ahead xs rest := by
  have turns (k : Nat) {acc ys : List β} {ahead : List Token}
      (gives : (repeated (fun acc ahead => (testedTurn test routine acc).read follow ahead) k acc ahead).Gives ys rest) :
      ∃ xs, ys = xs.reverse ++ acc ∧
        ItemsWhile holds (fun ahead x rest => (routine.read follow ahead).Gives x rest) ahead xs rest := by
    induction k generalizing acc ahead with
    | zero => cases gives.result
    | succ k ih =>
      obtain ⟨⟨acc', more⟩, later, first, next⟩ := gives_andThen gives
      obtain ⟨held, turn⟩ := gives_testedTurn tests first
      cases more with
      | true =>
        obtain ⟨x, rfl, here⟩ := turn
        obtain ⟨xs, rfl, items⟩ := ih next
        exact ⟨x :: xs, by simp, .more held here items⟩
      | false =>
        obtain ⟨rfl, rfl⟩ := turn
        cases next.result
        cases next.ahead
        exact ⟨[], rfl, .done held⟩
  rw [whileTrue, Routine.read] at gives
  obtain ⟨ys, later, repeats, done⟩ := gives_andThen gives
  obtain ⟨rfl, rfl⟩ := gives_pure done
  obtain ⟨xs, rfl, items⟩ := turns _ repeats
  rwa [append_nil, reverse_reverse]

end

theorem ItemsWhile.mono {item item' : List Token → β → List Token → Prop}
    {xs : List β} (items : ItemsWhile test item ahead xs rest)
    (each : ∀ {ahead x rest}, item ahead x rest → item' ahead x rest) : ItemsWhile test item' ahead xs rest := by
  induction items with
  | done stops => exact .done stops
  | more goes here _ ih => exact .more goes (each here) ih

theorem ItemsWhile.exists_map {γ : Type} {item : List Token → β → List Token → Prop}
    {item' : List Token → γ → List Token → Prop} {f : γ → β} {xs : List β} (items : ItemsWhile test item ahead xs rest)
    (each : ∀ {ahead x rest}, item ahead x rest → ∃ y, x = f y ∧ item' ahead y rest) :
    ∃ ys, xs = ys.map f ∧ ItemsWhile test item' ahead ys rest := by
  induction items with
  | done stops => exact ⟨[], rfl, .done stops⟩
  | more goes here _ ih =>
    obtain ⟨y, rfl, stands⟩ := each here
    obtain ⟨ys, rfl, items⟩ := ih
    exact ⟨y :: ys, rfl, .more goes stands items⟩

/-- What is behind a value. -/
theorem gives_colon {follow : Reader} {b x : β}
    (gives : ((do discard (accept [":"]); return b : Routine β).read follow ahead).Gives x rest) :
    ∃ colon, ahead = colon :: rest ∧ isWord (some colon) ":" = true ∧ x = b := by
  obtain ⟨colon, _, rfl, isColon, done⟩ := gives_accepted gives
  obtain ⟨rfl, rfl⟩ := gives_pure done
  exact ⟨colon, rfl, isColon, rfl⟩

theorem gives_switchLabel {x : List Tree} (gives : (Body.switchLabel.read (Rule.readWithin n) ahead).Gives x rest) :
    ∃ label : SwitchLabel, x = label.value?.toList ∧ SwitchLabel.Stands ahead label rest := by
  obtain ⟨word, mid, taken, behind⟩ := gives_bind gives
  cases gives_take taken
  split at behind
  · rename_i isCase
    rw [Routine.read_bind_ok (read_wouldAccept (by simp) ..)] at behind
    cases constant : Pattern.fitAll [.cls .identifier, ":"] mid with
    | true =>
      rw [constant, if_pos rfl] at behind
      obtain ⟨v, later, named, closed⟩ := gives_bind behind
      obtain ⟨name, rfl, parsed⟩ := gives_made named
      obtain ⟨t, rfl, -, rfl⟩ := gives_identifier (gives_parse parsed)
      obtain ⟨colon, rfl, -, rfl⟩ := gives_colon closed
      exact ⟨.value (.text t.value), rfl, .name isCase constant⟩
    | false =>
      rw [constant, if_neg Bool.false_ne_true] at behind
      obtain ⟨v, later, valued, closed⟩ := gives_bind behind
      obtain ⟨colon, rfl, isColon, rfl⟩ := gives_colon closed
      exact ⟨.value v, rfl, .expression isCase constant ⟨n, gives_parse valued⟩ isColon⟩
  · split at behind
    · rename_i isDefault
      obtain ⟨colon, rfl, isColon, rfl⟩ := gives_colon behind
      exact ⟨.default, rfl, .default isDefault isColon⟩
    · cases behind.result

/-- The labels of a group are one label and further ones. -/
theorem Series.labels {item : List Token → List Tree × Bool → List Token → Prop} {xs : List (List Tree)}
    (series : Series item ahead xs rest) (each : ∀ {ahead x more rest}, item ahead (x, more) rest →
      atLabel rest = more ∧ ∃ label : SwitchLabel, x = label.value?.toList ∧ SwitchLabel.Stands ahead label rest) :
    ∃ (label : SwitchLabel) (labels : List SwitchLabel) (mid : List Token),
      xs.flatten = (label :: labels).filterMap SwitchLabel.value? ∧ SwitchLabel.Stands ahead label mid ∧
        ItemsWhile atLabel SwitchLabel.Stands mid labels rest := by
  have flat (label : SwitchLabel) (labels : List SwitchLabel) : (label :: labels).filterMap SwitchLabel.value? =
      label.value?.toList ++ labels.filterMap SwitchLabel.value? := by cases label <;> rfl
  induction series with
  | last here =>
    obtain ⟨stops, label, rfl, stands⟩ := each here
    exact ⟨label, [], _, (flat label []).symm, stands, .done stops⟩
  | more here _ ih =>
    obtain ⟨goes, label, rfl, stands⟩ := each here
    obtain ⟨next, labels, mid, same, first, items⟩ := ih
    exact ⟨label, next :: labels, _, by rw [flatten_cons, same, ← flat], stands, .more goes first items⟩

theorem gives_switchGroup {x : Tree} (gives : (Rule.switchBlockStatementGroup.readWithin n ahead).Gives x rest) :
    ∃ g : SwitchGroup, x = g.node ∧ SwitchGroup.Stands ahead g rest := by
  obtain ⟨n, rfl, gives⟩ := gives_rule gives
  obtain ⟨found, mid, labelled, behind⟩ := gives_bind gives
  obtain ⟨statements, rfl, items⟩ := gives_made behind
  have tests (ahead : List Token) : Routine.read (Rule.readWithin n) (do
      return !isAmong (← peek) (Text.ofString "\x7d" :: Body.labelWords)) ahead = .ok (atStatement ahead) ahead := rfl
  obtain ⟨label, labels, between, same, first, further⟩ := (gives_many labelled).labels fun here => by
    obtain ⟨x, mid, label, behind⟩ := gives_bind here
    obtain ⟨t, mid, peeked, done⟩ := gives_bind behind
    obtain ⟨rfl, rfl⟩ := gives_peek peeked
    obtain ⟨same, rfl⟩ := gives_pure done
    cases same
    exact ⟨rfl, gives_switchLabel label⟩
  have read : ItemsWhile atStatement (Rule.Gives .blockStatement) mid statements rest :=
    (gives_itemsWhile tests items).mono fun here => ⟨n, gives_parse here⟩
  refine ⟨⟨label :: labels, statements⟩, ?_, .group first further read⟩
  rw [SwitchGroup.node, SwitchGroup.values, ← same]

/-- The nodes of a block are those of the groups that stand there. -/
theorem gives_switchGroups {nodes : List Tree}
    (gives : (Rule.switchBlockStatementGroups.readWithin n ahead).Gives nodes rest) :
    ∃ groups, nodes = groups.map SwitchGroup.node ∧ ∀ groups', GroupsStand ahead groups' ↔ groups' = groups := by
  obtain ⟨n, rfl, gives⟩ := gives_rule gives
  have tests (ahead : List Token) : Routine.read (Rule.readWithin n) (do
      return isAmong (← peek) Body.labelWords) ahead = .ok (atLabel ahead) ahead := rfl
  obtain ⟨groups, rfl, stand⟩ := (gives_itemsWhile tests gives).exists_map fun here =>
    gives_switchGroup (gives_parse here)
  refine ⟨groups, rfl, fun groups' => ⟨fun ⟨_, stand'⟩ => ?_, ?_⟩⟩
  · exact (switchGroup_decided.itemsWhile stand' stand).1
  · rintro rfl
    exact ⟨rest, stand⟩

end

/-! ## Nodes and labels -/

/-- The node of a group says its values and its statements, and nothing else. -/
theorem bare_node_eq_iff (g h : SwitchGroup) : g.node.bare = h.node.bare ↔
    g.values.map Tree.bare = h.values.map Tree.bare ∧ g.statements.map Tree.bare = h.statements.map Tree.bare := by
  have bare (g : SwitchGroup) : g.node.bare = .make .switchStatementCase
      [(.caseLabels, .list (g.values.map Tree.bare)), (.statements, .list (g.statements.map Tree.bare))] := by
    rw [← Tree.bareItems_eq_map, ← Tree.bareItems_eq_map]
    rfl
  rw [bare, bare]
  constructor
  · intro same
    have values := congrArg (fun t => t.get? .caseLabels) same
    have statements := congrArg (fun t => t.get? .statements) same
    exact ⟨Tree.list.inj (Option.some.inj values), Tree.list.inj (Option.some.inj statements)⟩
  · rintro ⟨values, statements⟩
    rw [values, statements]

variable {ahead : List Token} {g : SwitchGroup}

/-- A group without values has a `default`, since it has a label. -/
theorem SwitchGroup.Stands.hasDefault {rest : List Token}
    (stands : SwitchGroup.Stands ahead g rest) (empty : g.values = []) : g.HasDefault := by
  obtain ⟨first, -, -⟩ := stands
  cases first with
  | name => cases empty
  | expression => cases empty
  | default => exact mem_cons_self

theorem GroupsStand.hasDefault {groups : List SwitchGroup} (stand : GroupsStand ahead groups) :
    ∀ g ∈ groups, g.values = [] → g.HasDefault := by
  obtain ⟨rest, items⟩ := stand
  induction items with
  | done => exact fun g mem => absurd mem not_mem_nil
  | more _ here _ ih => exact forall_mem_cons.2 ⟨here.hasDefault, ih⟩

/-- Two groups of equal nodes: what the node does not say matters only where there are values. -/
theorem sameLabels_iff {h : SwitchGroup} (values : g.values.map Tree.bare = h.values.map Tree.bare)
    (complete : g.values = [] → g.HasDefault) (complete' : h.values = [] → h.HasDefault) :
    g.SameLabels h ↔ (g.values ≠ [] → (g.HasDefault ↔ h.HasDefault)) := by
  refine ⟨fun same _ => same.2, fun agree => ⟨values, ?_⟩⟩
  by_cases empty : g.values = []
  · have empty' : h.values = [] := by simpa [empty] using values.symm
    exact ⟨fun _ => complete' empty', fun _ => complete empty⟩
  · exact agree empty

section

variable {groups groups' : List SwitchGroup}

/-- The values and the statements of groups are the same, apart from places. -/
def SameContents (groups groups' : List SwitchGroup) : Prop :=
  List.Forall₂ (fun g h => g.values.map Tree.bare = h.values.map Tree.bare ∧
    g.statements.map Tree.bare = h.statements.map Tree.bare) groups groups'

theorem nodes_eq_iff : (groups.map SwitchGroup.node).map Tree.bare = (groups'.map SwitchGroup.node).map Tree.bare ↔
    SameContents groups groups' := by
  refine (iff_of_eq (congrFun₂ forall₂_eq_eq_eq _ _)).symm.trans ?_
  rw [forall₂_map_left_iff, forall₂_map_right_iff, forall₂_map_left_iff, forall₂_map_right_iff, SameContents]
  simp only [bare_node_eq_iff]

theorem SameContents.sameLabels_iff (same : SameContents groups groups')
    (complete : ∀ g ∈ groups, g.values = [] → g.HasDefault) (complete' : ∀ g ∈ groups', g.values = [] → g.HasDefault) :
    List.Forall₂ SwitchGroup.SameLabels groups groups' ↔
      List.Forall₂ (fun g h => g.values ≠ [] → (g.HasDefault ↔ h.HasDefault)) groups groups' := by
  induction same with
  | nil => exact ⟨fun _ => .nil, fun _ => .nil⟩
  | cons here _ ih =>
    rw [forall_mem_cons] at complete complete'
    rw [forall₂_cons, forall₂_cons, Grammar.sameLabels_iff here.1 complete.1 complete'.1, ih complete.2 complete'.2]

end

end JavaSource.Grammar

namespace JavaSource.Parser

open Grammar

/-- **What the nodes of a switch say about its labels.** In front of a block that is accepted there is exactly one list
of groups, and the nodes are those of the groups. The nodes of two blocks are the same, apart from places, exactly if
the values and the statements are, group by group; the labels of the groups are then the same exactly if each two
groups with values agree in having a `default` or not. -/
theorem switchLabels_agree_iff {p p' : Parser} {ahead ahead' : List Token} {nodes nodes' : List Tree}
    (facing : p.Facing ahead) (facing' : p'.Facing ahead')
    (read : (p.run (follow plainly .switchBlockStatementGroups)).1 = .ok nodes)
    (read' : (p'.run (follow plainly .switchBlockStatementGroups)).1 = .ok nodes') :
    ∃ groups groups', nodes = groups.map SwitchGroup.node ∧ nodes' = groups'.map SwitchGroup.node ∧
      (∀ gs, GroupsStand ahead gs ↔ gs = groups) ∧ (∀ gs, GroupsStand ahead' gs ↔ gs = groups') ∧
      (nodes.map Tree.bare = nodes'.map Tree.bare ↔ SameContents groups groups') ∧
      (nodes.map Tree.bare = nodes'.map Tree.bare →
        (List.Forall₂ SwitchGroup.SameLabels groups groups' ↔
          List.Forall₂ (fun g h => g.values ≠ [] → (g.HasDefault ↔ h.HasDefault)) groups groups')) := by
  obtain ⟨groups, rfl, stand⟩ := gives_switchGroups ⟨(follow_does _ facing).result.symm.trans read, rfl⟩
  obtain ⟨groups', rfl, stand'⟩ := gives_switchGroups ⟨(follow_does _ facing').result.symm.trans read', rfl⟩
  refine ⟨groups, groups', rfl, rfl, stand, stand', nodes_eq_iff, fun same => ?_⟩
  exact (nodes_eq_iff.1 same).sameLabels_iff ((stand groups).2 rfl).hasDefault ((stand' groups').2 rfl).hasDefault

def bothLabels : List Token :=
  [.spelled .keyword "case", .spelled .identifier "A", .spelled .operator ":", .spelled .keyword "default",
    .spelled .operator ":", .spelled .separator "\x7d"]

def oneLabel : List Token :=
  [.spelled .keyword "case", .spelled .identifier "A", .spelled .operator ":", .spelled .separator "\x7d"]

theorem bothLabels_stand : GroupsStand bothLabels [⟨[.value (.text "A"), .default], []⟩] :=
  ⟨bothLabels.drop 5, .more rfl (.group (.name rfl rfl) (.more rfl (.default rfl rfl) (.done rfl)) (.done rfl))
    (.done rfl)⟩

theorem oneLabel_stands : GroupsStand oneLabel [⟨[.value (.text "A")], []⟩] :=
  ⟨oneLabel.drop 3, .more rfl (.group (.name rfl rfl) (.done rfl) (.done rfl)) (.done rfl)⟩

theorem labels_differ :
    ¬ List.Forall₂ SwitchGroup.SameLabels [⟨[.value (.text "A"), .default], []⟩] [⟨[.value (.text "A")], []⟩] := by
  intro same
  obtain ⟨⟨-, both⟩, -⟩ := forall₂_cons.1 same
  cases both.1 (.tail _ (.head _)) with | tail _ later => cases later

theorem labels_read (tokens : List Token) (mem : tokens ∈ [bothLabels, oneLabel]) :
    ∃ nodes, ((ofTokens tokens).run (follow plainly .switchBlockStatementGroups)).1 = .ok nodes := by
  have succeeds : ∀ tokens ∈ [bothLabels, oneLabel],
      ((ofTokens tokens).run (follow plainly .switchBlockStatementGroups)).1.toBool = true := by decide +kernel
  exact exists_ok (succeeds tokens mem)

/-- The nodes of the two blocks are the same, and the labels of their groups are not. -/
theorem switchLabels_agree_iff_default : ∃ nodes nodes' groups groups',
    ((ofTokens bothLabels).run (follow plainly .switchBlockStatementGroups)).1 = .ok nodes ∧
    ((ofTokens oneLabel).run (follow plainly .switchBlockStatementGroups)).1 = .ok nodes' ∧
    GroupsStand bothLabels groups ∧ GroupsStand oneLabel groups' ∧ nodes.map Tree.bare = nodes'.map Tree.bare ∧
    ¬ List.Forall₂ SwitchGroup.SameLabels groups groups' := by
  obtain ⟨nodes, read⟩ := labels_read bothLabels (by simp)
  obtain ⟨nodes', read'⟩ := labels_read oneLabel (by simp)
  obtain ⟨groups, groups', -, -, stand, stand', same, -⟩ :=
    switchLabels_agree_iff (facing_ofTokens _) (facing_ofTokens _) read read'
  obtain rfl := (stand _).1 bothLabels_stand
  obtain rfl := (stand' _).1 oneLabel_stands
  exact ⟨nodes, nodes', _, _, read, read', bothLabels_stand, oneLabel_stands, same.2 (.cons ⟨rfl, rfl⟩ .nil),
    labels_differ⟩

/-- Not every two blocks with equal nodes have the same labels. -/
theorem switchLabels_lost : ¬ ∀ (tokens tokens' : List Token) (nodes nodes' : List Tree)
    (groups groups' : List SwitchGroup),
    ((ofTokens tokens).run (follow plainly .switchBlockStatementGroups)).1 = .ok nodes →
    ((ofTokens tokens').run (follow plainly .switchBlockStatementGroups)).1 = .ok nodes' →
    GroupsStand tokens groups → GroupsStand tokens' groups' → nodes = nodes' →
    List.Forall₂ SwitchGroup.SameLabels groups groups' := by
  intro law
  obtain ⟨nodes, read⟩ := labels_read bothLabels (by simp)
  obtain ⟨nodes', read'⟩ := labels_read oneLabel (by simp)
  have nodes_eq {tokens : List Token} {nodes : List Tree} {g : SwitchGroup}
      (read : ((ofTokens tokens).run (follow plainly .switchBlockStatementGroups)).1 = .ok nodes)
      (stand : GroupsStand tokens [g]) : nodes = [g.node] := by
    obtain ⟨groups, rfl, unique⟩ :=
      gives_switchGroups ⟨(follow_does _ (facing_ofTokens tokens)).result.symm.trans read, rfl⟩
    obtain rfl := (unique _).1 stand
    rfl
  have same : nodes = nodes' := (nodes_eq read bothLabels_stand).trans (nodes_eq read' oneLabel_stands).symm
  exact labels_differ (law _ _ _ _ _ _ read read' bothLabels_stand oneLabel_stands same)

end JavaSource.Parser
