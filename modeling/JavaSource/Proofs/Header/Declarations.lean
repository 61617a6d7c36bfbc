import JavaSource.Proofs.Parser.Given
import JavaSource.Proofs.Parser.Unit

/-!
# Package and import declarations

How the declarations before the types are read, token by token: what they consist of, and where the end of the tokens
cuts them off. A path is a `Series` of names; the end of the tokens `Breaks` it.
-/

open List

namespace JavaSource.Grammar

open Routine Outcome
open Rule (readWithin)

/-! ## Repetition up to a failure -/

/-- Items one after the other, and where the next one should come something bad. -/
inductive Breaks {β : Type} (item : List Token → β × Bool → List Token → Prop) (bad : List Token → Prop) :
    List Token → Prop where
  | here {ahead : List Token} : bad ahead → Breaks item bad ahead
  | later {ahead later : List Token} {x : β} : item ahead (x, true) later → Breaks item bad later →
    Breaks item bad ahead

variable {β : Type} {bad : List Token → Prop}

theorem Breaks.mono {item item' : List Token → β × Bool → List Token → Prop} {bad' : List Token → Prop}
    {ahead : List Token} (breaks : Breaks item bad ahead)
    (goes : ∀ {ahead x rest}, item ahead (x, true) rest → item' ahead (x, true) rest)
    (ends : ∀ {ahead}, bad ahead → bad' ahead) : Breaks item' bad' ahead := by
  induction breaks with
  | here failed => exact .here (ends failed)
  | later here _ ih => exact .later (goes here) ih

section

variable {follow : Reader} {β σ : Type} {ahead : List Token}
  {failure : ParseFailure}

variable {item : List Token → β × Bool → List Token → Prop}

/-- Turns that each take a token, fewer than there may be, fail exactly if one of them does. The relation `item` says
which turns go on, whatever was read before. -/
theorem repeated_error_iff (next : β → σ → σ)
    {step : σ → List Token → Outcome (σ × Bool)}
    (goes : ∀ s ahead s' rest, (step s ahead).Gives (s', true) rest ↔
      ∃ x, s' = next x s ∧ item ahead (x, true) rest)
    (fails : ∀ s ahead, (step s ahead).result = .error failure ↔ bad ahead)
    (shorter : ∀ {ahead x rest}, item ahead (x, true) rest → rest.length < ahead.length)
    {n : Nat} (enough : ahead.length < n) (s : σ) :
    (repeated step n s ahead).result = .error failure ↔ Breaks item bad ahead := by
  induction n generalizing s ahead with
  | zero => omega
  | succ n ih =>
    rw [repeated, andThen_error_iff, fails]
    constructor
    · rintro (failed | ⟨⟨s', more⟩, rest, gives, failed⟩)
      · exact .here failed
      · cases more with
        | false => cases failed
        | true =>
          obtain ⟨x, rfl, here⟩ := (goes s ahead s' rest).1 gives
          have less := shorter here
          exact .later here ((ih (by omega) _).1 failed)
    · intro breaks
      cases breaks with
      | here failed => exact .inl failed
      | @later _ rest x here breaks =>
        have less := shorter here
        exact .inr ⟨_, rest, (goes s ahead _ rest).2 ⟨x, rfl, here⟩, (ih (by omega) _).2 breaks⟩

/-- A repetition fails where an item does. -/
theorem failed_many {routine : Routine (β × Bool)}
    (goes : ∀ {ahead x rest}, (routine.read follow ahead).Gives x rest ↔ item ahead x rest)
    (fails : ∀ {ahead}, (routine.read follow ahead).result = .error failure ↔ bad ahead)
    (shorter : ∀ {ahead x rest}, item ahead (x, true) rest → rest.length < ahead.length) :
    ((many routine).read follow ahead).result = .error failure ↔ Breaks item bad ahead := by
  rw [many, Routine.read]
  refine (andThen_error_iff_left fun _ _ failed => by cases failed).trans ?_
  refine repeated_error_iff List.cons (fun acc ahead acc' rest => ⟨fun gives => ?_, ?_⟩) (fun acc ahead => ?_) shorter
    (by omega) []
  · obtain ⟨⟨x, more⟩, mid, here, done⟩ := gives_bind gives
    obtain ⟨same, rfl⟩ := gives_pure done
    cases same
    exact ⟨x, rfl, goes.1 here⟩
  · rintro ⟨x, rfl, here⟩
    exact gives_of_bind (goes.2 here) ⟨rfl, rfl⟩
  · rw [← fails, read_monad_bind]
    exact andThen_error_iff_left fun _ _ failed => by cases failed

/-- `Whilst p item ahead xs rest`: as long as the next token fits, from `ahead` on, the items `xs` come one after the
other, up to `rest`. -/
inductive Whilst (p : Pattern) (item : List Token → β → List Token → Prop) :
    List Token → List β → List Token → Prop where
  | done {ahead : List Token} : p.fits ahead[0]? = false → Whilst p item ahead [] ahead
  | more {ahead later rest : List Token} {x : β} {xs : List β} : p.fits ahead[0]? = true → item ahead x later →
    Whilst p item later xs rest → Whilst p item ahead (x :: xs) rest

def whileTurn (p : Pattern) (routine : Routine β) (acc : List β) : Routine (List β × Bool) := do
  if ← wouldAccept [p] then
    let x ← routine
    return (x :: acc, true)
  else return (acc, false)

theorem read_whileTurn (p : Pattern) (routine : Routine β) (acc : List β) (ahead : List Token) :
    (whileTurn p routine acc).read follow ahead =
      if p.fits ahead[0]? then (routine.read follow ahead).andThen fun x rest => .ok (x :: acc, true) rest
      else .ok (acc, false) ahead := by
  rw [whileTurn, read_bind_ok (read_wouldAccept_one ..)]
  cases p.fits ahead[0]? with
  | false => rfl
  | true =>
    rw [if_pos rfl, if_pos rfl, read_monad_bind]
    rfl

theorem read_whileTrue (p : Pattern) (routine : Routine β) (ahead : List Token) :
    (whileTrue (wouldAccept [p]) routine).read follow ahead =
      (repeated (fun acc ahead => (whileTurn p routine acc).read follow ahead) (ahead.length + 2) [] ahead).andThen
        fun acc rest => .ok acc.reverse rest := rfl

section

variable {p : Pattern} {routine : Routine β} {item : List Token → β → List Token → Prop} {bad : List Token → Prop}
  (goes : ∀ {ahead x rest}, (routine.read follow ahead).Gives x rest ↔ item ahead x rest)

variable {rest : List Token}

theorem whileTurn_stops {acc acc' : List β} : ((whileTurn p routine acc).read follow ahead).Gives (acc', false) rest ↔
      acc' = acc ∧ rest = ahead ∧ p.fits ahead[0]? = false := by
  rw [read_whileTurn]
  cases p.fits ahead[0]? with
  | false =>
    constructor
    · rintro ⟨ok, left⟩
      cases ok
      exact ⟨rfl, left.symm, rfl⟩
    · rintro ⟨rfl, rfl, -⟩
      exact ⟨rfl, rfl⟩
  | true =>
    rw [if_pos rfl]
    refine ⟨fun gives => ?_, fun ⟨_, _, unfit⟩ => (by cases unfit)⟩
    obtain ⟨x, mid, -, done⟩ := gives_andThen gives
    cases done.result

include goes

theorem whileTurn_goes {acc acc' : List β} : ((whileTurn p routine acc).read follow ahead).Gives (acc', true) rest ↔
      ∃ x, acc' = x :: acc ∧ p.fits ahead[0]? = true ∧ item ahead x rest := by
  rw [read_whileTurn]
  cases fits : p.fits ahead[0]? with
  | false => exact ⟨fun gives => (by cases gives.result), fun ⟨_, _, is, _⟩ => (by cases is)⟩
  | true =>
    rw [if_pos rfl]
    constructor
    · intro gives
      obtain ⟨x, mid, first, done⟩ := gives_andThen gives
      cases done.result
      cases done.ahead
      exact ⟨x, rfl, rfl, goes.1 first⟩
    · rintro ⟨x, rfl, -, here⟩
      exact gives_of_andThen (goes.2 here) ⟨rfl, rfl⟩

theorem gives_whileTrue (shorter : ∀ {ahead x rest}, item ahead x rest → rest.length < ahead.length) {xs : List β} :
    ((whileTrue (wouldAccept [p]) routine).read follow ahead).Gives xs rest ↔ Whilst p item ahead xs rest := by
  have turns (n : Nat) (acc ys : List β) (ahead : List Token) (enough : ahead.length < n) :
      (repeated (fun acc ahead => (whileTurn p routine acc).read follow ahead) n acc ahead).Gives ys rest ↔
        ∃ xs, ys = xs.reverse ++ acc ∧ Whilst p item ahead xs rest := by
    induction n generalizing acc ahead with
    | zero => omega
    | succ n ih =>
      constructor
      · intro gives
        obtain ⟨⟨acc', more⟩, mid, first, next⟩ := gives_andThen gives
        cases more with
        | true =>
          obtain ⟨x, rfl, fits, here⟩ := (whileTurn_goes goes).1 first
          have less := shorter here
          obtain ⟨xs, rfl, whilst⟩ := (ih _ _ (by omega)).1 next
          exact ⟨x :: xs, by rw [reverse_cons, append_assoc]; rfl, .more fits here whilst⟩
        | false =>
          obtain ⟨rfl, rfl, unfit⟩ := whileTurn_stops.1 first
          cases next.result
          cases next.ahead
          exact ⟨[], rfl, .done unfit⟩
      · rintro ⟨xs, rfl, whilst⟩
        cases whilst with
        | done unfit => exact gives_of_andThen (whileTurn_stops.2 ⟨rfl, rfl, unfit⟩) ⟨rfl, rfl⟩
        | @more _ later _ x xs fits here whilst =>
          have less := shorter here
          refine gives_of_andThen ((whileTurn_goes goes).2 ⟨x, rfl, fits, here⟩) ?_
          refine (ih _ _ (by omega)).2 ⟨xs, ?_, whilst⟩
          rw [reverse_cons, append_assoc]
          rfl
  rw [read_whileTrue]
  constructor
  · intro gives
    obtain ⟨ys, mid, repeats, done⟩ := gives_andThen gives
    cases done.result
    cases done.ahead
    obtain ⟨xs, rfl, whilst⟩ := (turns _ _ _ _ (by omega)).1 repeats
    rwa [append_nil, reverse_reverse]
  · intro whilst
    refine gives_of_andThen ((turns _ _ _ _ (by omega)).2 ⟨xs, rfl, whilst⟩) ⟨?_, rfl⟩
    rw [append_nil, reverse_reverse]

/-- A loop fails where an item does. -/
theorem failed_whileTrue (shorter : ∀ {ahead x rest}, item ahead x rest → rest.length < ahead.length)
    (fails : ∀ {ahead}, p.fits ahead[0]? = true → ((routine.read follow ahead).result = .error failure ↔ bad ahead)) :
    ((whileTrue (wouldAccept [p]) routine).read follow ahead).result = .error failure ↔
      Breaks (fun ahead x rest => p.fits ahead[0]? = true ∧ item ahead x.1 rest)
        (fun ahead => p.fits ahead[0]? = true ∧ bad ahead) ahead := by
  rw [read_whileTrue]
  refine (andThen_error_iff_left fun _ _ failed => by cases failed).trans
    (repeated_error_iff List.cons (fun acc ahead acc' rest => whileTurn_goes goes) (fun acc ahead => ?_)
      (fun here => shorter here.2) (by omega) [])
  rw [read_whileTurn]
  cases fits : p.fits ahead[0]? with
  | false => exact ⟨fun failed => (by cases failed), fun here => (by cases here.1)⟩
  | true =>
    rw [if_pos rfl, ← fails fits]
    exact (andThen_error_iff_left fun _ _ failed => by cases failed).trans ⟨.intro rfl, And.right⟩

end

end

/-! ## Paths -/

def afterName (name : Text) : Routine ((Text × Bool) × Bool) := do
  if ← tryAccept ["."] then
    if ← tryAccept ["*"] then
      discard <| accept [";"]
      return ((name, true), false)
    else return ((name, false), true)
  else
    discard <| accept [";"]
    return ((name, false), false)

/-- A name of an import, with whether a star follows it: at the end of the path, or before more of it. -/
inductive PathItem : List Token → (Text × Bool) × Bool → List Token → Prop where
  | last {t s : Token} {rest : List Token} : isOf (some t) .identifier = true → isWord (some s) ";" = true →
    PathItem (t :: s :: rest) ((t.value, false), false) rest
  | star {t p w s : Token} {rest : List Token} : isOf (some t) .identifier = true → isWord (some p) "." = true →
    isWord (some w) "*" = true → isWord (some s) ";" = true →
    PathItem (t :: p :: w :: s :: rest) ((t.value, true), false) rest
  | more {t p : Token} {rest : List Token} : isOf (some t) .identifier = true → isWord (some p) "." = true →
    isWord rest[0]? "*" = false → PathItem (t :: p :: rest) ((t.value, false), true) rest

/-- The end of the tokens where a name of an import or something behind it has to be. -/
inductive ItemCut : List Token → Prop where
  | nothing : ItemCut []
  | name {t : Token} : isOf (some t) .identifier = true → ItemCut [t]
  | star {t p w : Token} : isOf (some t) .identifier = true → isWord (some p) "." = true →
    isWord (some w) "*" = true → ItemCut [t, p, w]

section

variable {follow : Reader} {n : Nat} {ahead rest : List Token}

@[simp] theorem fits_string (t : Option Token) (s : String) :
    Pattern.fits t (.word (Text.ofString s)) = isWord t s := rfl

@[simp] theorem read_accept_nil (p : Pattern) :
    (accept [p]).read follow [] = { result := .error .endOfInput, ahead := [] } := rfl

@[simp] theorem read_tryAccept_nil (s : String) :
    (tryAccept [.word (Text.ofString s)]).read follow [] = .ok false [] := rfl

@[simp] theorem Outcome.andThen_failed {α : Type} (failure : ParseFailure) (ahead : List Token)
    (f : α → List Token → Outcome β) :
    ({ result := .error failure, ahead } : Outcome α).andThen f = { result := .error failure, ahead } := rfl

theorem readWithin_identifier_cons (t : Token) : Rule.identifier.readWithin (n + 1) (t :: ahead) =
      if isOf (some t) .identifier then .ok t.value ahead
      else { result := .error (.illegal (Pattern.cls .identifier).expected ahead[0]?), ahead } := by
  rw [readWithin]
  exact read_accept_cons (.cls .identifier) t ahead

def readItem (n : Nat) : List Token → Outcome ((Text × Bool) × Bool) :=
  (parse .identifier >>= afterName).read (readWithin (n + 1))

theorem readItem_cons {t : Token} (name : isOf (some t) .identifier = true) :
    readItem n (t :: ahead) = (afterName t.value).read (readWithin (n + 1)) ahead := by
  rw [readItem, read_monad_bind, read_parse, readWithin_identifier_cons, if_pos name, andThen_pure]

variable {x : (Text × Bool) × Bool}

theorem PathItem.read (item : PathItem ahead x rest) :
    readItem n ahead = .ok x rest := by
  cases item with
  | last name semicolon =>
    have point : isWord _ "." = false := isWord_ne semicolon (by decide)
    simp [readItem_cons name, afterName, point, semicolon]
  | star name point star semicolon => simp [readItem_cons name, afterName, point, star, semicolon]
  | more name point other =>
    simp [readItem_cons name, afterName, point, read_tryAccept_unfit (p := "*") other]

theorem ItemCut.read (cut : ItemCut ahead) : (readItem n ahead).result = .error .endOfInput := by
  cases cut with
  | nothing => rfl
  | name name => simp [readItem_cons name, afterName]
  | star name point star => simp [readItem_cons name, afterName, point, star]

/-- **A name of an import** is read, or the tokens end in it, or there is a syntax error. -/
theorem readItem_cases (ahead : List Token) : (∃ x rest, PathItem ahead x rest) ∨ ItemCut ahead ∨
      ∃ description found, (readItem n ahead).result = .error (.illegal description found) := by
  cases ahead with
  | nil => exact .inr (.inl .nothing)
  | cons t ahead =>
    cases name : isOf (some t) .identifier with
    | false =>
      refine .inr (.inr ?_)
      rw [readItem, read_monad_bind, read_parse, readWithin_identifier_cons, name]
      exact ⟨_, _, rfl⟩
    | true =>
      rw [readItem_cons name]
      cases ahead with
      | nil => exact .inr (.inl (.name name))
      | cons p ahead =>
        cases point : isWord (some p) "." with
        | false =>
          cases semicolon : isWord (some p) ";" with
          | true => exact .inl ⟨_, _, .last name semicolon⟩
          | false => exact .inr (.inr (by simp [afterName, point, semicolon]))
        | true =>
          cases star : isWord ahead[0]? "*" with
          | false => exact .inl ⟨_, _, .more name point star⟩
          | true =>
            cases ahead with
            | nil => cases star
            | cons w ahead =>
              rw [getElem?_cons_zero] at star
              cases ahead with
              | nil => exact .inr (.inl (.star name point star))
              | cons s ahead =>
                cases semicolon : isWord (some s) ";" with
                | true => exact .inl ⟨_, _, .star name point star semicolon⟩
                | false => exact .inr (.inr (by simp [afterName, point, star, semicolon]))

theorem readItem_gives : (readItem n ahead).Gives x rest ↔ PathItem ahead x rest := by
  refine ⟨fun gives => ?_, fun item => by rw [item.read]; exact ⟨rfl, rfl⟩⟩
  rcases readItem_cases (n := n) ahead with ⟨x', rest', item⟩ | cut | ⟨description, found, failed⟩
  · rw [item.read] at gives
    cases gives.result
    cases gives.ahead
    exact item
  · cases cut.read.symm.trans gives.result
  · cases failed.symm.trans gives.result

theorem readItem_ends : (readItem n ahead).result = .error .endOfInput ↔ ItemCut ahead := by
  refine ⟨fun ends => ?_, ItemCut.read⟩
  rcases readItem_cases (n := n) ahead with ⟨x, rest, item⟩ | cut | ⟨description, found, failed⟩
  · rw [item.read] at ends
    cases ends
  · exact cut
  · cases failed.symm.trans ends

theorem PathItem.shorter (item : PathItem ahead x rest) : rest.length < ahead.length := by
  cases item <;> simp only [length_cons] <;> omega

/-! ## Imports -/

inductive Optionally (word : String) : List Token → Bool → List Token → Prop where
  | there {t : Token} {rest : List Token} : isWord (some t) word = true → Optionally word (t :: rest) true rest
  | missing {ahead : List Token} : isWord ahead[0]? word = false → Optionally word ahead false ahead

variable {word : String} {b : Bool} {tree : Tree} {x : Text × Bool}

theorem Optionally.read (optionally : Optionally word ahead b rest) :
    (tryAccept [.word (Text.ofString word)]).read follow ahead = .ok b rest := by
  cases optionally with
  | there is => simp [is]
  | missing other => exact read_tryAccept_unfit other

theorem Optionally.unique {b' : Bool} {rest' : List Token}
    (first : Optionally word ahead b rest) (second : Optionally word ahead b' rest') : (b, rest) = (b', rest') := by
  cases first with
  | there is =>
    cases second with
    | there => rfl
    | missing other => cases is.symm.trans other
  | missing other =>
    cases second with
    | there is => cases is.symm.trans other
    | missing => rfl

theorem exists_optionally (word : String) (ahead : List Token) : ∃ b rest, Optionally word ahead b rest := by
  cases is : isWord ahead[0]? word with
  | false => exact ⟨false, ahead, .missing is⟩
  | true =>
    cases ahead with
    | nil => cases is
    | cons t rest => exact ⟨true, rest, .there is⟩

def importOf (isStatic : Bool) (names : List (Text × Bool)) : Tree :=
  .make .importDeclaration
    [(.path, .text (dotted (names.map (·.1)))), (.isStatic, .bool isStatic), (.wildcard, .bool (names.any (·.2)))]

/-- An import: the word for it, perhaps `static`, and the names up to the semicolon. -/
inductive Import : List Token → Tree → List Token → Prop where
  | intro {t : Token} {ahead mid rest : List Token} {isStatic : Bool} {names : List (Text × Bool)} :
    isWord (some t) "import" = true → Optionally "static" ahead isStatic mid → Series PathItem mid names rest →
    Import (t :: ahead) (importOf isStatic names) rest

/-- The end of the tokens behind the start of an import. -/
inductive ImportCut : List Token → Prop where
  | intro {t : Token} {ahead mid : List Token} {isStatic : Bool} :
    isWord (some t) "import" = true → Optionally "static" ahead isStatic mid → Breaks PathItem ItemCut mid →
    ImportCut (t :: ahead)

theorem Import.read (read : Import ahead tree rest) :
    Rule.importDeclaration.readWithin (n + 2) ahead = .ok tree rest := by
  cases read with
  | @intro t ahead mid _ isStatic names word static path =>
    have names_read : (many (parse .identifier >>= afterName)).read (readWithin (n + 1)) mid = .ok names rest := by
      have enough := path.length_le PathItem.shorter
      exact Series.read_many (path.mono fun item => item.read) (by omega)
    rw [readWithin, Rule.body, Body.importDeclaration, read_monad_bind, read_discard, read_accept_cons,
      fits_string, if_pos word, andThen_pure, andThen_pure, read_bind_ok static.read, read_monad_bind]
    exact (congrArg (Outcome.andThen · _) names_read).trans rfl

theorem import_gives :
    (Rule.importDeclaration.readWithin (n + 2) ahead).Gives tree rest ↔ Import ahead tree rest := by
  refine ⟨fun gives => ?_, fun read => by rw [read.read]; exact ⟨rfl, rfl⟩⟩
  obtain ⟨t, later, rfl, word, next⟩ := gives_accepted gives
  obtain ⟨isStatic, mid, static⟩ := exists_optionally "static" later
  rw [read_bind_ok static.read] at next
  obtain ⟨names, rfl, path⟩ := gives_made next
  exact .intro word static ((gives_many path).mono readItem_gives.1)

theorem path_ends {mid : List Token} :
    ((many (parse .identifier >>= afterName)).read (readWithin (n + 1)) mid).result = .error .endOfInput ↔
      Breaks PathItem ItemCut mid :=
  failed_many readItem_gives readItem_ends PathItem.shorter

theorem import_ends : (Rule.importDeclaration.readWithin (n + 2) ahead).result = .error .endOfInput ↔
    ahead = [] ∨ ImportCut ahead := by
  cases ahead with
  | nil => exact ⟨fun _ => .inl rfl, fun _ => rfl⟩
  | cons t ahead =>
    obtain ⟨isStatic, mid, static⟩ := exists_optionally "static" ahead
    rw [readWithin, Rule.body, Body.importDeclaration, read_monad_bind, read_discard, read_accept_cons,
      fits_string]
    cases word : isWord (some t) "import" with
    | false =>
      refine ⟨fun failed => (by cases failed), ?_⟩
      rintro (none | cut)
      · cases none
      · cases cut with
        | intro is => cases word.symm.trans is
    | true =>
      rw [if_pos rfl, andThen_pure, andThen_pure, read_bind_ok static.read, read_monad_bind]
      refine (andThen_error_iff_left fun _ _ failed => by cases failed).trans (path_ends.trans ?_)
      refine ⟨fun breaks => .inr (.intro word static breaks), ?_⟩
      rintro (none | cut)
      · cases none
      · cases cut with
        | intro is static' breaks =>
          cases static.unique static'
          exact breaks

theorem Optionally.length_le (optionally : Optionally word ahead b rest) : rest.length ≤ ahead.length := by
  cases optionally with
  | there => exact Nat.le_succ _
  | missing => exact Nat.le_refl _

theorem Import.shorter (read : Import ahead tree rest) : rest.length < ahead.length := by
  cases read with
  | intro word static path =>
    have first := static.length_le
    have second := path.length_le PathItem.shorter
    rw [length_cons]
    omega

/-! ## Qualified names -/

/-- A name, and whether a point follows it. -/
inductive NameItem : List Token → Text × Bool → List Token → Prop where
  | intro {t : Token} {ahead rest : List Token} {more : Bool} : isOf (some t) .identifier = true →
    Optionally "." ahead more rest → NameItem (t :: ahead) (t.value, more) rest

theorem NameItem.shorter (item : NameItem ahead x rest) : rest.length < ahead.length := by
  cases item with
  | intro name point => exact Nat.lt_succ_of_le point.length_le

def readName (n : Nat) : List Token → Outcome (Text × Bool) :=
  Routine.read (readWithin (n + 1)) do
    let name ← parse .identifier
    let more ← tryAccept ["."]
    return (name, more)

theorem readName_cons (t : Token) {more : Bool} (point : Optionally "." ahead more rest) :
    readName n (t :: ahead) = if isOf (some t) .identifier then .ok (t.value, more) rest
      else { result := .error (.illegal (Pattern.cls .identifier).expected ahead[0]?), ahead } := by
  rw [readName, read_monad_bind, read_parse, readWithin_identifier_cons]
  cases isOf (some t) .identifier with
  | false => rfl
  | true =>
    rw [if_pos rfl, if_pos rfl, andThen_pure, read_bind_ok point.read]
    rfl

theorem NameItem.read (item : NameItem ahead x rest) : readName n ahead = .ok x rest := by
  cases item with
  | intro name point => rw [readName_cons _ point, if_pos name]

theorem readName_gives : (readName n ahead).Gives x rest ↔ NameItem ahead x rest := by
  refine ⟨fun gives => ?_, fun item => by rw [item.read]; exact ⟨rfl, rfl⟩⟩
  cases ahead with
  | nil => cases gives.result
  | cons t ahead =>
    obtain ⟨more, mid, point⟩ := exists_optionally "." ahead
    rw [readName_cons t point] at gives
    cases name : isOf (some t) .identifier with
    | false =>
      rw [name] at gives
      cases gives.result
    | true =>
      rw [name] at gives
      cases gives.result
      cases gives.ahead
      exact .intro name point

theorem readName_ends : (readName n ahead).result = .error .endOfInput ↔ ahead = [] := by
  cases ahead with
  | nil => exact ⟨fun _ => rfl, fun _ => rfl⟩
  | cons t ahead =>
    obtain ⟨more, mid, point⟩ := exists_optionally "." ahead
    rw [readName_cons t point]
    refine ⟨fun failed => ?_, fun none => (by cases none)⟩
    split at failed <;> cases failed

theorem qualifiedIdentifier_gives {name : Text} :
    (Rule.qualifiedIdentifier.readWithin (n + 2) ahead).Gives name rest ↔
      ∃ names, name = dotted names ∧ Series NameItem ahead names rest := by
  constructor
  · intro gives
    obtain ⟨names, rfl, series⟩ := gives_made gives
    exact ⟨names, rfl, (gives_many_iff readName_gives.1 NameItem.read NameItem.shorter).1 series⟩
  · rintro ⟨names, rfl, series⟩
    exact gives_of_bind ((gives_many_iff readName_gives.1 NameItem.read NameItem.shorter).2 series) ⟨rfl, rfl⟩

theorem qualifiedIdentifier_ends : (Rule.qualifiedIdentifier.readWithin (n + 2) ahead).result = .error .endOfInput ↔
      Breaks NameItem (· = []) ahead := by
  rw [readWithin, Rule.body, Body.qualifiedIdentifier, read_monad_bind]
  exact (andThen_error_iff_left fun _ _ failed => by cases failed).trans
    (failed_many readName_gives readName_ends NameItem.shorter)

end

end JavaSource.Grammar

namespace JavaSource.Parser

open Grammar Routine Outcome

/-! ## Before the types -/

def PlacedImport (ahead : List Token) (tree : Tree) (rest : List Token) : Prop :=
  ∃ bare, Import ahead bare rest ∧ tree = bare.placeAt (positionOf ahead[0]?)

/-- Imports one after the other, as many as there are. -/
abbrev Imports : List Token → List Tree → List Token → Prop := Whilst "import" PlacedImport

/-- Imports one after the other, and the end of the tokens in the last one. -/
def ImportsCut : List Token → Prop := Breaks (fun ahead (x : Tree × Bool) => PlacedImport ahead x.1) ImportCut

/-- The end of the tokens behind the word `package`: in its name, or where the semicolon has to be. -/
def PackageCut (ahead : List Token) : Prop :=
  Breaks NameItem (· = []) ahead ∨ ∃ names, Series NameItem ahead names []

/-- The names of a package and the semicolon behind them. -/
inductive PackageName : List Token → List Text → List Token → Prop where
  | intro {ahead rest : List Token} {names : List Text} {s : Token} : Series NameItem ahead names (s :: rest) →
    isWord (some s) ";" = true → PackageName ahead names rest

section

variable {ahead rest : List Token}

variable {tree : Tree}

theorem reads_import_gives : (Rule.importDeclaration.reads ahead).Gives tree rest ↔ Import ahead tree rest := by
  obtain ⟨n, nesting, -⟩ := exists_nesting (k := 2) ahead.length (by decide)
  rw [Rule.reads, nesting]
  exact import_gives

theorem reads_import_ends :
    (Rule.importDeclaration.reads ahead).result = .error .endOfInput ↔ ahead = [] ∨ ImportCut ahead := by
  obtain ⟨n, nesting, -⟩ := exists_nesting (k := 2) ahead.length (by decide)
  rw [Rule.reads, nesting]
  exact import_ends

theorem PlacedImport.shorter (placed : PlacedImport ahead tree rest) : rest.length < ahead.length := by
  obtain ⟨bare, read, -⟩ := placed
  exact read.shorter

def importItem : Routine Tree := do
  let start ← peek
  let declaration ← Grammar.parse .importDeclaration
  return declaration.placeAt (positionOf start)

theorem importItem_gives : (importItem.read Rule.reads ahead).Gives tree rest ↔ PlacedImport ahead tree rest := by
  rw [importItem, read_bind_ok (read_peek ..)]
  constructor
  · intro gives
    obtain ⟨bare, rfl, read⟩ := gives_made gives
    exact ⟨bare, reads_import_gives.1 (gives_parse read), rfl⟩
  · rintro ⟨bare, read, rfl⟩
    have parsed : ((Grammar.parse .importDeclaration).read Rule.reads ahead).Gives bare rest := by
      rw [read_parse]
      exact reads_import_gives.2 read
    exact gives_of_bind parsed ⟨rfl, rfl⟩

theorem importItem_ends (starts : isWord ahead[0]? "import" = true) :
    (importItem.read Rule.reads ahead).result = .error .endOfInput ↔ ImportCut ahead := by
  rw [importItem, read_bind_ok (read_peek ..), read_monad_bind, read_parse]
  refine (andThen_error_iff_left fun _ _ failed => by cases failed).trans (reads_import_ends.trans ?_)
  refine ⟨fun cut => cut.resolve_left fun none => ?_, .inr⟩
  rw [none] at starts
  cases starts

theorem importDeclarations_gives {imports : List Tree} :
    (importDeclarations.read Rule.reads ahead).Gives imports rest ↔ Imports ahead imports rest :=
  gives_whileTrue importItem_gives PlacedImport.shorter

theorem importDeclarations_ends :
    (importDeclarations.read Rule.reads ahead).result = .error .endOfInput ↔ ImportsCut ahead := by
  refine (failed_whileTrue (p := "import") importItem_gives PlacedImport.shorter fun starts => importItem_ends starts).trans
    ⟨fun cut => cut.mono And.right And.right, fun cut => cut.mono ?_ ?_⟩
  · rintro ahead x rest ⟨bare, read, placed⟩
    refine ⟨?_, bare, read, placed⟩
    cases read with
    | intro word => exact word
  · intro ahead cut
    refine ⟨?_, cut⟩
    cases cut with
    | intro word => exact word

theorem reads_qualifiedIdentifier_gives {name : Text} : (Rule.qualifiedIdentifier.reads ahead).Gives name rest ↔
      ∃ names, name = dotted names ∧ Series NameItem ahead names rest := by
  obtain ⟨n, nesting, -⟩ := exists_nesting (k := 2) ahead.length (by decide)
  rw [Rule.reads, nesting]
  exact qualifiedIdentifier_gives

theorem reads_qualifiedIdentifier_ends :
    (Rule.qualifiedIdentifier.reads ahead).result = .error .endOfInput ↔ Breaks NameItem (· = []) ahead := by
  obtain ⟨n, nesting, -⟩ := exists_nesting (k := 2) ahead.length (by decide)
  rw [Rule.reads, nesting]
  exact qualifiedIdentifier_ends

section

variable {annotations : Option (List Tree)} {first : Option Token}

theorem readPackage_gives {package : Tree} : (readPackage annotations first ahead).Gives package rest ↔
      ∃ names, package = packageOf annotations first ahead[0]? (dotted names) ∧ PackageName ahead names rest := by
  constructor
  · intro gives
    obtain ⟨name, mid, named, next⟩ := gives_andThen gives
    obtain ⟨_, behind, accepted, done⟩ := gives_andThen next
    cases done.result
    cases done.ahead
    obtain ⟨names, rfl, series⟩ := reads_qualifiedIdentifier_gives.1 named
    obtain ⟨s, rfl, semicolon, -⟩ := gives_accept accepted
    exact ⟨names, rfl, .intro series semicolon⟩
  · rintro ⟨names, rfl, named⟩
    cases named with
    | intro series semicolon =>
      refine gives_of_andThen (reads_qualifiedIdentifier_gives.2 ⟨names, rfl, series⟩) ?_
      rw [read_accept_cons, fits_string, if_pos semicolon, andThen_pure]
      exact ⟨rfl, rfl⟩

theorem readPackage_ends : (readPackage annotations first ahead).result = .error .endOfInput ↔ PackageCut ahead := by
  have semicolon (rest : List Token) : ((accept [";"]).read Rule.reads rest).result = .error .endOfInput ↔
      rest = [] := by
    cases rest with
    | nil => exact ⟨fun _ => rfl, fun _ => rfl⟩
    | cons s rest =>
      rw [read_accept_cons]
      refine ⟨fun failed => ?_, fun none => (by cases none)⟩
      split at failed <;> cases failed
  rw [readPackage, andThen_error_iff, reads_qualifiedIdentifier_ends, PackageCut]
  refine or_congr_right ⟨?_, ?_⟩
  · rintro ⟨name, rest, named, failed⟩
    obtain ⟨names, rfl, series⟩ := reads_qualifiedIdentifier_gives.1 named
    have ends := (andThen_error_iff_left fun _ _ failed => by cases failed).1 failed
    cases (semicolon rest).1 ends
    exact ⟨names, series⟩
  · rintro ⟨names, series⟩
    exact ⟨_, _, reads_qualifiedIdentifier_gives.2 ⟨names, rfl, series⟩, rfl⟩

end

end

end JavaSource.Parser
