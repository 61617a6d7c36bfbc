import JavaSource.Parser.Entry
import JavaSource.Proofs.Lexer.Neighbours
import JavaSource.Proofs.Lexer.NumberLiterals
import JavaSource.Proofs.Types.Completeness

/-!
# Types printed and read again

A type is printed as its words one after the other, with a blank behind each comma, if it is *plain*: no wildcard, no
arguments but those of the last segment, and no primitive type with a second dimension. The text is then read as the
words of the type again, where two closing brackets side by side are two words, and so the type is read as it was:
`parse_unparse_type`.
-/

namespace JavaSource.Grammar

open List Text Vocabulary

open Lexer

mutual

/-- Only the last segment has arguments, and all of them are plain. -/
def Reference.Plain : Reference → Prop
  | .last _ arguments => arguments.Plain
  | .dot _ arguments sub => arguments = .none ∧ sub.Plain

def Arguments.Plain : Arguments → Prop
  | .none => True
  | .angle items => items.Plain

def Items.Plain : Items → Prop
  | .one argument => argument.Plain
  | .comma argument rest => argument.Plain ∧ rest.Plain

/-- The argument is no wildcard, and not a primitive type with more than one dimension. -/
def Argument.Plain : Argument → Prop
  | .wildcard => False
  | .array bound _ further => bound = none ∧ further = 0
  | .reference bound type _ => bound = none ∧ type.Plain

end

/-- The type has no wildcard, no arguments but those of the last segment, and no primitive type with a second
dimension. -/
def JavaType.Plain : JavaType → Prop
  | primitive _ dimensions => dimensions ≤ 1
  | reference type _ => type.Plain

/-! ## Texts -/

def bracketText (n : Nat) : Text := (List.replicate n (Text.ofString "[]")).flatten

mutual

def Reference.text : Reference → Text
  | .last name arguments => name.text ++ arguments.text
  | .dot name arguments sub => name.text ++ (arguments.text ++ (ofString "." ++ sub.text))

def Arguments.text : Arguments → Text
  | .none => []
  | .angle items => ofString "<" ++ (items.text ++ ofString ">")

def Items.text : Items → Text
  | .one argument => argument.text
  | .comma argument rest => argument.text ++ (ofString ", " ++ rest.text)

/-- The text of an argument without a bound. -/
def Argument.text : Argument → Text
  | .wildcard => []
  | .array _ name further => name.text ++ bracketText (further + 1)
  | .reference _ type dimensions => type.text ++ bracketText dimensions

end

def JavaType.text : JavaType → Text
  | primitive name dimensions => name.text ++ bracketText dimensions
  | reference type dimensions => type.text ++ bracketText dimensions

/-! ## Printing -/

section

open Printer

/-- However many levels there are beyond those of the tree, it is printed as this text. -/
def Prints (t : Tree) (s : Text) : Prop := ∀ n, t.size ≤ n → printWithin n t = pure (.text s)

theorem Prints.succ {t : Tree} {s : Text} (prints : ∀ n, t.size ≤ n + 1 → printWithin (n + 1) t = pure (.text s)) :
    Prints t s := by
  intro n enough
  obtain ⟨m, rfl⟩ : ∃ m, n = m + 1 := ⟨n - 1, by have := t.size_pos; omega⟩
  exact prints m enough

theorem Primitive.prints (name : Primitive) {dimensions : Nat} (few : dimensions ≤ 1) :
    Prints (name.tree dimensions) (name.text ++ bracketText dimensions) := by
  refine .succ fun n _ => ?_
  obtain rfl | rfl : dimensions = 0 ∨ dimensions = 1 := by omega
  · rfl
  · rfl

/-- What is printed behind a dotted type for its dimensions. -/
def Bracketed (dimensions : Tree) (pairs : Text) : Prop :=
  ∀ acc : Text, (if dimensions.isTrue then do
    let pairs ← Printer.brackets dimensions
    followedBy (.text acc) pairs
  else pure (.text acc)) = pure (.text (acc ++ pairs))

theorem bracketed_null : Bracketed .null [] := by
  intro acc
  rw [append_nil]
  rfl

theorem bracketed_dimensions (n : Nat) : Bracketed (.dimensions n) (bracketText n) := by
  cases n with
  | zero =>
    intro acc
    rw [bracketText, replicate_zero, flatten_nil, append_nil]
    rfl
  | succ n =>
    intro acc
    change (pure (.text (acc ++ (List.replicate (List.replicate (n + 1) Tree.null).length _).flatten)) : PrintM Tree) = _
    rw [length_replicate]
    rfl

/-- The step by which arguments are put behind what was printed. -/
def addArgument (print : Print) (acc argument : Tree) : PrintM Tree := do
  let whole ← print argument
  let part ← Printer.inner whole
  followedBy acc (part.shown ++ ofString ", ")

theorem addArgument_eq {print : Print} {argument : Tree} {s : Text}
    (printed : print argument = pure (.text (ofString "<" ++ (s ++ ofString ">")))) (acc : Text) :
    addArgument print (.text acc) argument = pure (.text (acc ++ s ++ ofString ", ")) := by
  have inside : (Printer.cut 1 (ofString "<" ++ (s ++ ofString ">"))).drop 1 = s := by
    simp [Printer.cut, ofString]
  rw [addArgument, printed, pure_bind, Printer.inner, pure_bind, inside, append_assoc]
  rfl

section

variable {name : Name} {dimensions arguments sub : Tree} {n : Nat} {s pairs : Text}

theorem Name.attr_name : attr (name.tree dimensions arguments sub) .name = pure (.text name.text) := rfl

theorem Name.attr_subType : attr (name.tree dimensions arguments sub) .subType = pure sub := rfl

theorem Name.attr_arguments : attr (name.tree dimensions arguments sub) .arguments = pure arguments := rfl

theorem Name.attr_dimensions : attr (name.tree dimensions arguments sub) .dimensions = pure dimensions := rfl

theorem isTrue_null : Tree.null.isTrue = false := rfl

theorem followedBy_text (acc s : Text) : followedBy (.text acc) s = pure (.text (acc ++ s)) := rfl

theorem showing_text {t : Tree} (printed : printWithin n t = pure (.text s)) : showing (printWithin n) t = pure s :=
    by
  rw [showing, printed, pure_bind]
  rfl

theorem Name.prints (name : Name) (bracketed : Bracketed dimensions pairs) :
    printWithin (n + 1) (name.tree dimensions .null .null) = pure (.text (name.text ++ pairs)) := by
  change Printer.referenceType (printWithin n) _ = _
  simp only [Printer.referenceType, attr_name, attr_subType, attr_arguments, attr_dimensions, pure_bind, isTrue_null,
    Bool.false_eq_true, if_false]
  exact bracketed _

theorem Name.prints_dot (name : Name) (something : sub.isTrue = true)
    (printed : printWithin n sub = pure (.text s)) (bracketed : Bracketed dimensions pairs) :
    printWithin (n + 1) (name.tree dimensions .null sub) =
      pure (.text (name.text ++ (ofString "." ++ s) ++ pairs)) := by
  change Printer.referenceType (printWithin n) _ = _
  simp only [Printer.referenceType, attr_name, attr_subType, attr_arguments, attr_dimensions, pure_bind, something,
    if_true, showing_text printed, followedBy_text _ (ofString "." ++ s), isTrue_null, Bool.false_eq_true, if_false]
  exact bracketed _

theorem Name.prints_angle (name : Name) {trees : List Tree} (something : trees ≠ [])
    (folded : ∀ opened : Text, trees.foldlM (addArgument (printWithin n)) (.text opened) =
      pure (.text (opened ++ s ++ ofString ", "))) (bracketed : Bracketed dimensions pairs) :
    printWithin (n + 1) (name.tree dimensions (.list trees) .null) =
      pure (.text (name.text ++ ofString "<" ++ s ++ ofString ">" ++ pairs)) := by
  have some : (Tree.list trees).isTrue = true := by simpa [Tree.isTrue] using something
  have elements : lift (Tree.list trees).elements = (pure trees : PrintM (List Tree)) := rfl
  have shortened : shortenedBy 2 (.text (name.text ++ ofString "<" ++ s ++ ofString ", ")) =
      (pure (.text (name.text ++ ofString "<" ++ s)) : PrintM Tree) := by
    rw [shortenedBy, Printer.cut, length_append]
    exact congrArg (fun s : Text => (pure (.text s) : PrintM Tree)) take_left
  change Printer.referenceType (printWithin n) _ = _
  simp only [Printer.referenceType, attr_name, attr_subType, attr_arguments, attr_dimensions, pure_bind, some, if_true,
    followedBy_text _ (ofString "<"), elements, isTrue_null, Bool.false_eq_true, if_false]
  change List.foldlM (addArgument (printWithin n)) _ trees >>= _ = _
  rw [folded, pure_bind, shortened, pure_bind, followedBy_text, pure_bind]
  exact bracketed _

theorem prints_typeArgument {type pattern : Tree} (printed : printWithin n type = pure (.text s)) :
    printWithin (n + 1) (.make .typeArgument [(.type, type), (.patternType, pattern)]) =
      pure (.text (ofString "<" ++ (s ++ ofString ">"))) := by
  have found : attr (.make .typeArgument [(.type, type), (.patternType, pattern)]) .type = pure type := rfl
  change Tree.text <$> Printer.typeArgument (printWithin n) _ = _
  rw [Printer.typeArgument, found, pure_bind, showing_text printed, pure_bind, map_pure, append_assoc]

end

mutual

theorem Reference.prints (type : Reference) (plain : type.Plain) {dimensions : Tree} {pairs : Text}
    (bracketed : Bracketed dimensions pairs) : Prints (type.tree dimensions) (type.text ++ pairs) := by
  refine .succ fun n enough => ?_
  cases type with
  | last name arguments =>
    cases arguments with
    | none =>
      rw [Reference.text, Arguments.text, append_nil]
      exact name.prints bracketed
    | angle items =>
      have size : (Tree.list items.trees).size < ((Reference.last name (.angle items)).tree dimensions).size :=
        Tree.size_lt_of_get? (a := .arguments) rfl
      rw [Tree.size] at size
      have some : items.trees ≠ [] := by cases items <;> exact cons_ne_nil _ _
      have printed := name.prints_angle some (items.folded plain (n := n) (by omega)) bracketed
      rw [Reference.text, Arguments.text, ← append_assoc, ← append_assoc]
      exact printed
  | dot name arguments sub =>
    obtain ⟨rfl, plain⟩ := plain
    have size : (sub.tree .null).size < ((Reference.dot name .none sub).tree dimensions).size :=
      Tree.size_lt_of_get? (a := .subType) rfl
    have printed := sub.prints plain bracketed_null n (by omega)
    have some : (sub.tree .null).isTrue = true := by cases sub <;> rfl
    rw [append_nil] at printed
    exact name.prints_dot some printed bracketed

theorem Items.folded (items : Items) (plain : items.Plain) {n : Nat} (enough : Tree.sizeOfItems items.trees ≤ n)
    (opened : Text) : items.trees.foldlM (addArgument (printWithin n)) (.text opened) =
      pure (.text (opened ++ items.text ++ ofString ", ")) := by
  cases items with
  | one argument =>
    have printed := argument.prints plain n (by simpa [Items.trees, Tree.sizeOfItems] using enough)
    rw [Items.trees, foldlM_cons, addArgument_eq printed, pure_bind]
    rfl
  | comma argument rest =>
    rw [Items.trees, Tree.sizeOfItems] at enough
    have printed := argument.prints plain.1 n (by omega)
    rw [Items.trees, foldlM_cons, addArgument_eq printed, pure_bind, rest.folded plain.2 (by omega), Items.text]
    simp only [append_assoc]

theorem Argument.prints (argument : Argument) (plain : argument.Plain) :
    Prints argument.tree (ofString "<" ++ (argument.text ++ ofString ">")) := by
  refine .succ fun n enough => ?_
  cases argument with
  | wildcard => cases plain
  | array bound name further =>
    obtain ⟨rfl, rfl⟩ := plain
    have size : (name.tree 1).size < (Argument.array none name 0).tree.size := Tree.size_lt_of_get? (a := .type) rfl
    exact prints_typeArgument (name.prints (Nat.le_refl 1) n (by omega))
  | reference bound type dimensions =>
    obtain ⟨rfl, plain⟩ := plain
    have size : (type.tree (.dimensions dimensions)).size < (Argument.reference none type dimensions).tree.size :=
      Tree.size_lt_of_get? (a := .type) rfl
    exact prints_typeArgument (type.prints plain (bracketed_dimensions dimensions) n (by omega))

end

end

/-! ## Reading -/

section

open Number

variable {text : Text} {words : List Text}

/-- The text is read as tokens of these values, and nothing in it is part of an escape or of an operator with an
equals sign. -/
structure ReadsAs (text : Text) (words : List Text) : Prop where
  tokenizes : ∃ spellings, Tokenizes text spellings ∧ spellings.map Prod.snd = words
  unsigned : ∀ c ∈ text, c ∉ ofString "=\\"

/-- The text goes on with a word. -/
def StartsWord (text : Text) : Prop := text.head?.any Text.isIdentifierStart = true

theorem StartsWord.head (starts : StartsWord text) :
    ∃ (c : CodePoint) (later : Text), text = c :: later ∧ isIdentifierStart c = true := by
  cases text with
  | nil => cases starts
  | cons c later => exact ⟨c, later, rfl, starts⟩

theorem startsWord_append {word : Text} (starts : StartsWord word) (text : Text) : StartsWord (word ++ text) := by
  obtain ⟨c, later, rfl, isStart⟩ := starts.head
  exact isStart

theorem readsAs_nil : ReadsAs [] [] := ⟨⟨[], tokenizes_nil, rfl⟩, fun _ mem => absurd mem not_mem_nil⟩

theorem ReadsAs.word {word : Text} (starts : StartsWord word) (part : ∀ c ∈ word, isIdentifierPart c = true)
    (next : StartsAmong (ofString "<>,.[") text) (later : ReadsAs text words) :
    ReadsAs (word ++ text) (word :: words) := by
  have apart : ∀ c ∈ ofString "<>,.[", isIdentifierPart c = false := by decide
  have unsigned : ∀ c ∈ ofString "=\\", isIdentifierPart c = false := by decide
  obtain ⟨spellings, tokenizes, rfl⟩ := later.tokenizes
  refine ⟨⟨_, tokenizes_word starts part (fun d mem => apart d (next d mem)) tokenizes, rfl⟩, fun c mem => ?_⟩
  rcases mem_append.1 mem with mem | mem
  · exact fun sign => ne_of_holds (part c mem) (unsigned c sign) rfl
  · exact later.unsigned c mem

theorem Name.readsAs (name : Name) (next : StartsAmong (ofString "<>,.[") text) (later : ReadsAs text words) :
    ReadsAs (name.text ++ text) (name.text :: words) :=
  .word name.isName.start name.isName.part next later

theorem Name.startsWord (name : Name) (text : Text) : StartsWord (name.text ++ text) :=
  startsWord_append name.isName.start text

theorem Primitive.startsWord (name : Primitive) (text : Text) : StartsWord (name.text ++ text) :=
  startsWord_append ((by decide : ∀ word ∈ basicTypes, word.head?.any isIdentifierStart = true)
    name.text name.mem) text

theorem Primitive.readsAs (name : Primitive) (next : StartsAmong (ofString "<>,.[") text)
    (later : ReadsAs text words) : ReadsAs (name.text ++ text) (name.text :: words) := by
  have part : ∀ word ∈ basicTypes, ∀ c ∈ word, isIdentifierPart c = true := by decide
  have starts := name.startsWord []
  rw [append_nil] at starts
  exact .word starts (part name.text name.mem) next later

/-- A sign is a token of its own if the lexer finds no longer lexeme there. -/
theorem ReadsAs.sign {c : CodePoint} {cls : TokenClass} (sign : c ∈ ofString "<>,.[]")
    (read : lexeme? c text = some (.plain cls 1)) (later : ReadsAs text words) : ReadsAs (c :: text) ([c] :: words) := by
  have visible : ∀ c ∈ ofString "<>,.[]", isBlank c = false := by decide
  have apart : ∀ c ∈ ofString "<>,.[]", c ≠ '/'.toNat ∧ c ∉ ofString "=\\" := by decide
  obtain ⟨spellings, tokenizes, rfl⟩ := later.tokenizes
  have first : Tokenizes (c :: [] ++ text) ((cls, [c]) :: spellings) :=
    tokenizes_lexeme (visible c sign) (comment?_of_ne (apart c sign).1 _) read tokenizes
  refine ⟨⟨_, first, rfl⟩, fun d mem => ?_⟩
  rcases mem_cons.1 mem with rfl | mem
  · exact (apart d sign).2
  · exact later.unsigned d mem

theorem ReadsAs.brackets (later : ReadsAs text words) (n : Nat) :
    ReadsAs (bracketText n ++ text) (Grammar.brackets n ++ words) := by
  induction n with
  | zero => exact later
  | succ n ih =>
    have closed : ReadsAs (']'.toNat :: (bracketText n ++ text)) _ :=
      .sign (by decide) (lexeme?_of_separator (by decide) (by decide) _) ih
    exact .sign (by decide) (lexeme?_of_separator (by decide) (by decide) _) closed

theorem ReadsAs.comma (next : StartsWord text) (later : ReadsAs text words) :
    ReadsAs (ofString ", " ++ text) (ofString "," :: words) := by
  obtain ⟨c, rest, rfl, isStart⟩ := next.head
  obtain ⟨spellings, tokenizes, same⟩ := later.tokenizes
  have visible : ∀ d ∈ (c :: rest).head?, isBlank d = false := by
    rintro d ⟨⟩
    exact isIdentifierStart_visible isStart
  have blank : ReadsAs (' '.toNat :: c :: rest) words := by
    refine ⟨⟨spellings, tokenizes_blank (by decide) visible tokenizes, same⟩, fun d mem => ?_⟩
    rcases mem_cons.1 mem with rfl | mem
    · decide
    · exact later.unsigned d mem
  exact .sign (by decide) (lexeme?_of_separator (by decide) (by decide) _) blank

theorem ReadsAs.point (next : StartsWord text) (later : ReadsAs text words) :
    ReadsAs (ofString "." ++ text) (ofString "." :: words) := by
  obtain ⟨c, rest, rfl, isStart⟩ := next.head
  have noDigit : isDigit c = false := by
    by_contra digit
    exact ne_of_holds isStart (not_isIdentifierStart_of_isDigit (Bool.not_eq_false _ ▸ digit)) rfl
  exact .sign (by decide) (lexeme?_of_lone_point (ne_of_holds isStart (by decide)) noDigit rest) later

/-- Every operator that an angle bracket could begin goes on with an equals sign or with an opening bracket. -/
theorem leadingOperator?_angle {c : CodePoint} (angle : c ∈ ofString "<>") (unsigned : '='.toNat ∉ text)
    (apart : text.head? ≠ some '<'.toNat) : leadingOperator? (c :: text) = some [c] := by
  have single : ∀ c ∈ ofString "<>", [c] ∈ operators := by decide
  have longer : ∀ c ∈ ofString "<>", ∀ op ∈ operators, op.head?.any (· != c) ∨ op = [c] ∨
      '='.toNat ∈ op.tail ∨ op.tail.head? = some '<'.toNat := by decide
  have some : (leadingOperator? (c :: text)).isSome = true :=
    find?_isSome.2 ⟨[c], single c angle, by simp⟩
  obtain ⟨op, found⟩ := Option.isSome_iff_exists.1 some
  have holds : List.isPrefixOf op (c :: text) = true :=
    find?_some (p := fun op : Text => op.isPrefixOf (c :: text)) found
  obtain ⟨more, split⟩ := isPrefixOf_iff_prefix.1 holds
  rw [found]
  rcases longer c angle op (mem_of_find?_eq_some found) with other | rfl | further
  · cases op with
    | nil => cases other
    | cons d op => simp [(cons_eq_cons.1 split).1] at other
  · rfl
  · cases op with
    | nil => simp at further
    | cons d op =>
      obtain ⟨-, rfl⟩ := cons_eq_cons.1 split
      rcases further with sign | doubled
      · exact absurd (mem_append_left more sign) unsigned
      · have follows : (op ++ more).head? = op.head?.or more.head? := head?_append
        rw [show op.head? = _ from doubled] at follows
        exact absurd follows apart

theorem ReadsAs.angle {c : CodePoint} (angle : c ∈ ofString "<>") (apart : text.head? ≠ some '<'.toNat)
    (later : ReadsAs text words) : ReadsAs (c :: text) ([c] :: words) := by
  have facts : ∀ c ∈ ofString "<>", c ∈ ofString "<>,.[]" ∧ c ∉ leadingMarks ∧
      Number.isDecimal c = false ∧ isIdentifierStart c = false := by decide
  obtain ⟨sign, unmarked, noDigit, noStart⟩ := facts c angle
  have unsigned : '='.toNat ∉ text := fun mem => later.unsigned _ mem (by decide)
  have read : lexeme? c text = some (.plain .operator 1) := by
    rw [lexeme?_of_unmarked unmarked, noDigit, noStart, operatorReading?, leadingOperator?_angle angle unsigned apart]
    rfl
  exact .sign sign read later

theorem startsAmong_bracketText {marks : Text} (bracket : '['.toNat ∈ marks) (next : StartsAmong marks text)
    (n : Nat) : StartsAmong marks (bracketText n ++ text) := by
  cases n with
  | zero => exact next
  | succ n => exact startsAmong_cons bracket _

mutual

/-- A dotted type is read up to a sign behind it that does not go on with it. -/
theorem Reference.readsAs (type : Reference) (plain : type.Plain) {text : Text} {words : List Text}
    (next : StartsAmong (ofString ">,[") text) (later : ReadsAs text words) :
    ReadsAs (type.text ++ text) (type.flatten ++ words) ∧ StartsWord (type.text ++ text) := by
  cases type with
  | last name arguments =>
    obtain ⟨read, follows⟩ := arguments.readsAs plain next later
    rw [Reference.text, append_assoc]
    exact ⟨name.readsAs follows read, name.startsWord _⟩
  | dot name arguments sub =>
    obtain ⟨rfl, plain⟩ := plain
    obtain ⟨read, starts⟩ := sub.readsAs plain next later
    rw [Reference.text, append_assoc]
    exact ⟨name.readsAs (startsAmong_cons (by decide) _) (.point starts read), name.startsWord _⟩

theorem Arguments.readsAs (arguments : Arguments) (plain : arguments.Plain) {text : Text} {words : List Text}
    (next : StartsAmong (ofString ">,[") text) (later : ReadsAs text words) :
    ReadsAs (arguments.text ++ text) (arguments.flatten ++ words) ∧
      StartsAmong (ofString "<>,.[") (arguments.text ++ text) := by
  cases arguments with
  | none => exact ⟨later, next.mono (by decide)⟩
  | angle items =>
    have closed : ReadsAs ('>'.toNat :: text) _ := later.angle (by decide) fun head => absurd (next _ head) (by decide)
    obtain ⟨read, starts⟩ := items.readsAs plain (startsAmong_cons (by decide) text) closed
    obtain ⟨c, rest, split, isStart⟩ := starts.head
    have apart : (items.text ++ '>'.toNat :: text).head? ≠ some '<'.toNat := by
      rw [split, head?_cons, ne_eq, Option.some_inj]
      exact ne_of_holds isStart (by decide)
    have opened : ReadsAs ('<'.toNat :: (items.text ++ '>'.toNat :: text)) _ := read.angle (by decide) apart
    rw [Arguments.text, Arguments.flatten, append_assoc, append_assoc, cons_append, append_assoc]
    exact ⟨opened, startsAmong_cons (by decide) _⟩

theorem Items.readsAs (items : Items) (plain : items.Plain) {text : Text} {words : List Text}
    (next : StartsAmong (ofString ">,[") text) (later : ReadsAs text words) :
    ReadsAs (items.text ++ text) (items.flatten ++ words) ∧ StartsWord (items.text ++ text) := by
  cases items with
  | one argument => exact argument.readsAs plain next later
  | comma argument rest =>
    obtain ⟨read, starts⟩ := rest.readsAs plain.2 next later
    rw [Items.text, Items.flatten, append_assoc, append_assoc, append_assoc]
    exact argument.readsAs plain.1 (startsAmong_cons (by decide) _) (.comma starts read)

theorem Argument.readsAs (argument : Argument) (plain : argument.Plain) {text : Text} {words : List Text}
    (next : StartsAmong (ofString ">,[") text) (later : ReadsAs text words) :
    ReadsAs (argument.text ++ text) (argument.flatten ++ words) ∧ StartsWord (argument.text ++ text) := by
  cases argument with
  | wildcard => cases plain
  | array bound name further =>
    obtain ⟨rfl, rfl⟩ := plain
    rw [Argument.text, append_assoc]
    exact ⟨name.readsAs (startsAmong_bracketText (by decide) (next.mono (by decide)) 1) (later.brackets 1),
      name.startsWord _⟩
  | reference bound type dimensions =>
    obtain ⟨rfl, plain⟩ := plain
    rw [Argument.text, Argument.flatten, boundWords, nil_append, append_assoc, append_assoc]
    exact type.readsAs plain (startsAmong_bracketText (by decide) next dimensions) (later.brackets dimensions)

end

theorem JavaType.readsAs (type : JavaType) (plain : type.Plain) : ReadsAs type.text type.flatten := by
  have bracketed (n : Nat) : ReadsAs (bracketText n) (Grammar.brackets n) := by
    have read := readsAs_nil.brackets n
    rwa [append_nil, append_nil] at read
  have next {marks : Text} (bracket : '['.toNat ∈ marks) (n : Nat) : StartsAmong marks (bracketText n) := by
    have ended : StartsAmong marks [] := by rintro c ⟨⟩
    have starts := startsAmong_bracketText bracket ended n
    rwa [append_nil] at starts
  cases type with
  | primitive name dimensions => exact name.readsAs (next (by decide) dimensions) (bracketed dimensions)
  | reference type dimensions => exact (type.readsAs plain (next (by decide) dimensions) (bracketed dimensions)).1

end

/-! ## Both ways -/

theorem unparse_type (type : JavaType) (plain : type.Plain) : unparse type.tree = .ok (.text type.text) := by
  have printed : Prints type.tree type.text := by
    cases type with
    | primitive name dimensions => exact name.prints plain
    | reference type dimensions => exact type.prints plain (bracketed_dimensions dimensions)
  rw [unparse, Printer.printAt, Printer.print, printed _ (Nat.le_refl _)]
  rfl

theorem parse_type (type : JavaType) {text : Text} (reads : ReadsAs text type.flatten) :
    Entry.type.parse (.text text) = .ok type.tree := by
  obtain ⟨spellings, tokenizes, values⟩ := reads.tokenizes
  have plain : ∀ c ∈ text, c ≠ '\\'.toNat := fun c mem same => reads.unsigned c mem (same ▸ by decide)
  obtain ⟨tokens, tokenized, rfl⟩ := tokenizes.tokenize plain
  have worded : ∀ t ∈ tokens, t.Worded := by
    have all := tokenize_worded .strict (.text text)
    rwa [tokenized] at all
  rw [map_map] at values
  have written : Written type.flatten tokens [] := ⟨tokens, (append_nil _).symm, values, worded⟩
  have length : type.flatten.length = tokens.length := by rw [← values, length_map]
  obtain ⟨n, depth, -, enough⟩ := exists_nesting (k := 0) tokens.length (by decide)
  have does := Parser.does_map (Rule.toTree .type) (Parser.follow_does .type (Parser.facing_ofTokens tokens))
  rw [Rule.reads, type.read (by omega) written ⟨rfl, rfl, rfl⟩, Outcome.andThen_pure] at does
  have parser : Parser.ofSource .strict (.text text) = .ok (.ofTokens tokens) := by
    rw [Parser.ofSource, tokenized]
  have result : ((Parser.ofTokens tokens).run (Parser.perform plainly (.rule .type))).1 = .ok type.tree := does.result
  simp only [Entry.parse, Entry.prepare, Entry.mode, Entry.asked, bind, Except.bind, parser, result]

/-- **Types round trip**: the tree of a plain type is printed as a text, and the text is read as the same tree. -/
theorem parse_unparse_type (type : JavaType) (plain : type.Plain) :
    ∃ s, unparse type.tree = .ok (.text s) ∧ Entry.type.parse (.text s) = .ok type.tree :=
  ⟨type.text, unparse_type type plain, parse_type type (type.readsAs plain)⟩

/-- A qualified type with two dimensions whose arguments are arrays, the second one with arguments itself. -/
def nestedArrays (a b c d : Name) (e : Primitive) : JavaType :=
  .reference (.dot a .none (.last b (.angle (.comma (.array none e 0)
    (.one (.reference none (.last c (.angle (.one (.reference none (.last d .none) 1)))) 0)))))) 2

/-- The text of the type has two closing brackets side by side. -/
theorem parse_unparse_type_nested : ∃ (a b c d : Name) (e : Primitive),
    unparse (nestedArrays a b c d e).tree = .ok (.text "a.b<int[], c<d[]>>[][]") ∧
      Entry.type.parse (.text "a.b<int[], c<d[]>>[][]") = .ok (nestedArrays a b c d e).tree := by
  have names : ∀ name ∈ ["a", "b", "c", "d"].map ofString, IsName name := by decide
  let a : Name := ⟨"a", names _ (by simp)⟩
  let b : Name := ⟨"b", names _ (by simp)⟩
  let c : Name := ⟨"c", names _ (by simp)⟩
  let d : Name := ⟨"d", names _ (by simp)⟩
  let e : Primitive := ⟨"int", by decide⟩
  have plain : (nestedArrays a b c d e).Plain := ⟨rfl, ⟨rfl, rfl⟩, rfl, rfl, trivial⟩
  have text : (nestedArrays a b c d e).text = ofString "a.b<int[], c<d[]>>[][]" := by rfl
  have printed := unparse_type _ plain
  obtain ⟨s, isText, parsed⟩ := parse_unparse_type _ plain
  rw [printed] at isText
  cases isText
  rw [text] at printed parsed
  exact ⟨a, b, c, d, e, printed, parsed⟩

end JavaSource.Grammar
