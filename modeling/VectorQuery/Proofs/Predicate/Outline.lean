import Mathlib.Logic.ExistsUnique
import VectorQuery.Proofs.Text
import VectorQuery.Token.Lexeme

/-! The outline of a predicate: its words and bracketed groups, without what stands between
double quotes. An evaluator reads every level of brackets by itself, and where a level holds
one connective and no denial beside it, there is one way to read it. -/
namespace VectorQuery.Outline
open Lexeme

inductive Bracket where
  | round
  | square
  | curly
deriving DecidableEq, Repr

namespace Bracket

@[simp]
def opening : Bracket → Char
  | .round => '('
  | .square => '['
  | .curly => '{'

@[simp]
def closing : Bracket → Char
  | .round => ')'
  | .square => ']'
  | .curly => '}'

end Bracket

/-- What a text holds, in order. A quote that does not end leaves a mark as well. -/
inductive Mark where
  | opening (bracket : Bracket)
  | closing (bracket : Bracket)
  | word (letters : List Char)
  | unclosed
deriving DecidableEq, Repr

def Mark.ofCharacter? : Char → Option Mark
  | '(' => some (.opening .round)
  | '[' => some (.opening .square)
  | '{' => some (.opening .curly)
  | ')' => some (.closing .round)
  | ']' => some (.closing .square)
  | '}' => some (.closing .curly)
  | _ => none

/-- Behind the letters of a word so far, between quotes, or behind a backslash there. -/
inductive Mode where
  | outside (letters : List Char)
  | inside
  | escaped

def ended (letters : List Char) : List Mark :=
  if letters.isEmpty then [] else [.word letters]

def marks : Mode → List Char → List Mark
  | .outside letters, [] => ended letters
  | .inside, [] | .escaped, [] => [.unclosed]
  | .outside letters, character :: rest =>
    if isWordPart character then marks (.outside (letters ++ [character])) rest
    else ended letters ++
      if character = '"' then marks .inside rest
      else (Mark.ofCharacter? character).toList ++ marks (.outside []) rest
  | .inside, character :: rest =>
    if character = '"' then marks (.outside []) rest
    else if character = '\\' then marks .escaped rest
    else marks .inside rest
  | .escaped, _ :: rest => marks .inside rest

/-- A word, or what a pair of brackets holds. -/
inductive Part where
  | word (letters : List Char)
  | group (bracket : Bracket) (parts : List Part)

/-- Puts marks in their groups, inside the brackets that are open and behind the parts so
far. -/
def gather : List Mark → List (Bracket × List Part) → List Part → Option (List Part)
  | [], [], parts => some parts
  | [], _ :: _, _ => none
  | .word letters :: rest, stack, parts => gather rest stack (parts ++ [.word letters])
  | .opening bracket :: rest, stack, parts => gather rest ((bracket, parts) :: stack) []
  | .closing bracket :: rest, (opened, outer) :: stack, parts =>
    if bracket = opened then gather rest stack (outer ++ [.group bracket parts]) else none
  | .closing _ :: _, [], _ => none
  | .unclosed :: _, _, _ => none

/-- The outline of a text whose brackets are balanced and nest properly. -/
def outline (text : String) : Option (List Part) :=
  gather (marks (.outside []) text.toList) [] []

mutual
/-- The levels within a part. -/
def Part.levels : Part → List (List Part)
  | .word _ => []
  | .group _ parts => parts :: innerLevels parts

def innerLevels : List Part → List (List Part)
  | [] => []
  | part :: rest => part.levels ++ innerLevels rest
end

/-- The outermost level and that of every group. -/
def levels (parts : List Part) : List (List Part) :=
  parts :: innerLevels parts

def isConnective (letters : List Char) : Bool :=
  letters == "AND".toList || letters == "OR".toList

namespace Part

def isConnective : Part → Bool
  | .word letters => Outline.isConnective letters
  | .group _ _ => false

def isNegation : Part → Bool
  | .word letters => letters == "NOT".toList || letters == "not".toList
  | .group _ _ => false

end Part

/-- At most one connective, and no denial beside it. -/
structure Unambiguous (level : List Part) : Prop where
  connectives : level.countP Part.isConnective ≤ 1
  negations : level.any Part.isConnective = true → level.any Part.isNegation = false

/-! Readings of a level. -/

/-- A level as an evaluator takes it apart. -/
inductive Tree where
  | plain (parts : List Part)
  | negation (word : Part) (tree : Tree)
  | joined (left : Tree) (connective : Part) (right : Tree)

/-- Every way to take a level apart, whatever binds tighter and whichever side groups first. -/
inductive Reading : List Part → Tree → Prop
  | plain {level : List Part} :
      level.any Part.isConnective = false → level.head?.any Part.isNegation = false →
      Reading level (.plain level)
  | negation {word : Part} {level : List Part} {tree : Tree} :
      word.isNegation = true → Reading level tree →
      Reading (word :: level) (.negation word tree)
  | joined {left right : List Part} {connective : Part} {first second : Tree} :
      connective.isConnective = true → Reading left first → Reading right second →
      Reading (left ++ connective :: right) (.joined first connective second)

/-- The only reading of a level without a connective: the denials in front, and the rest. -/
def denied : List Part → Tree
  | [] => .plain []
  | part :: rest => if part.isNegation then .negation part (denied rest) else .plain (part :: rest)

theorem denied_of_plain {level : List Part} (plain : level.head?.any Part.isNegation = false) :
    denied level = .plain level := by
  cases level with
  | nil => rfl
  | cons part rest =>
    have other : part.isNegation = false := plain
    rw [denied, if_neg (by simp [other])]

theorem reading_denied {level : List Part} (none : level.any Part.isConnective = false) :
    Reading level (denied level) := by
  induction level with
  | nil => exact .plain rfl rfl
  | cons part rest ih =>
    obtain ⟨-, behind⟩ := Bool.or_eq_false_iff.mp none
    rw [denied]
    split
    next denies => exact .negation denies (ih behind)
    next other => exact .plain none (Bool.eq_false_iff.mpr other)

theorem Reading.eq_denied {level : List Part} {tree : Tree} (reading : Reading level tree)
    (none : level.any Part.isConnective = false) : tree = denied level := by
  induction reading with
  | plain _ plain => exact (denied_of_plain plain).symm
  | negation denies _ ih =>
    obtain ⟨-, behind⟩ := Bool.or_eq_false_iff.mp none
    rw [denied, if_pos denies, ih behind]
  | joined connective _ _ _ _ => simp [connective] at none

theorem head?_any_of_any {level : List Part} {holds : Part → Bool}
    (none : level.any holds = false) : level.head?.any holds = false := by
  cases level with
  | nil => rfl
  | cons part rest => exact (Bool.or_eq_false_iff.mp none).1

/-- A connective is found again behind parts that are none. -/
theorem split_unique {left right left' right' : List Part} {connective connective' : Part}
    (joins : connective.isConnective = true) (joins' : connective'.isConnective = true)
    (none : left.any Part.isConnective = false) (none' : left'.any Part.isConnective = false)
    (same : left ++ connective :: right = left' ++ connective' :: right') :
    left = left' ∧ connective = connective' ∧ right = right' := by
  have others {left : List Part} (none : left.any Part.isConnective = false) :
      ∀ part ∈ left, (!part.isConnective) = true := by simpa using none
  have front := congrArg (List.takeWhile fun part => !part.isConnective) same
  have back := congrArg (List.dropWhile fun part => !part.isConnective) same
  rw [List.takeWhile_append_of_pos (others none), List.takeWhile_append_of_pos (others none')]
    at front
  rw [List.dropWhile_append_of_pos (others none), List.dropWhile_append_of_pos (others none')]
    at back
  simp only [List.takeWhile_cons, List.dropWhile_cons, joins, joins', Bool.not_true,
    Bool.false_eq_true, if_false, List.append_nil, List.cons.injEq] at front back
  exact ⟨front, back⟩

/-- Neither side of the only connective of a level holds another one. -/
theorem sides_of_countP {left right : List Part} {connective : Part}
    (joins : connective.isConnective = true)
    (few : (left ++ connective :: right).countP Part.isConnective ≤ 1) :
    left.any Part.isConnective = false ∧ right.any Part.isConnective = false := by
  rw [List.countP_append, List.countP_cons_of_pos joins] at few
  constructor
  · exact List.any_eq_false.mpr (List.countP_eq_zero.mp (by omega))
  · exact List.any_eq_false.mpr (List.countP_eq_zero.mp (by omega))

/-- An unambiguous level is read in one way, whatever the precedence of denials and
connectives. -/
theorem Unambiguous.reading {level : List Part} (unambiguous : Unambiguous level) :
    ∃! tree, Reading level tree := by
  cases present : level.any Part.isConnective with
  | false => exact ⟨denied level, reading_denied present, fun _ reading => reading.eq_denied present⟩
  | true =>
    obtain ⟨connective, inside, joins⟩ := List.any_eq_true.mp present
    obtain ⟨left, right, rfl⟩ := List.append_of_mem inside
    obtain ⟨noneLeft, noneRight⟩ := sides_of_countP joins unambiguous.connectives
    have affirmed := unambiguous.negations present
    have sides := affirmed
    rw [List.any_append, List.any_cons, Bool.or_eq_false_iff, Bool.or_eq_false_iff] at sides
    have plainLeft := head?_any_of_any sides.1
    have plainRight := head?_any_of_any sides.2.2
    refine ⟨.joined (.plain left) connective (.plain right), ?_, fun tree reading => ?_⟩
    · exact .joined joins (.plain noneLeft plainLeft) (.plain noneRight plainRight)
    · -- Another reading splits the level at a connective too, and there is only this one.
      have few := unambiguous.connectives
      generalize same : left ++ connective :: right = level at reading present affirmed few
      cases reading with
      | plain none _ => simp [none] at present
      | negation denies _ => simp [denies] at affirmed
      | joined joins' first second =>
        obtain ⟨noneLeft', noneRight'⟩ := sides_of_countP joins' few
        obtain ⟨rfl, rfl, rfl⟩ := split_unique joins joins' noneLeft noneLeft' same
        rw [first.eq_denied noneLeft, second.eq_denied noneRight, denied_of_plain plainLeft,
          denied_of_plain plainRight]

/-- A denial in front of a connective denies either all of the level or its first part. -/
theorem readings_of_denial {left right : List Part} {word connective : Part} {first second : Tree}
    (denies : word.isNegation = true) (joins : connective.isConnective = true)
    (reading : Reading left first) (reading' : Reading right second) :
    Reading (word :: left ++ connective :: right) (.negation word (.joined first connective second)) ∧
      Reading (word :: left ++ connective :: right)
        (.joined (.negation word first) connective second) :=
  ⟨.negation denies (.joined joins reading reading'),
    .joined joins (.negation denies reading) reading'⟩

/-! Putting outlines together. -/

mutual
/-- The marks that a part stands for. -/
def Part.written : Part → List Mark
  | .word letters => [.word letters]
  | .group bracket parts => .opening bracket :: (written parts ++ [.closing bracket])

def written : List Part → List Mark
  | [] => []
  | part :: rest => part.written ++ written rest
end

theorem written_append (first second : List Part) :
    written (first ++ second) = written first ++ written second := by
  induction first with
  | nil => rfl
  | cons part rest ih => rw [List.cons_append, written, written, ih, List.append_assoc]

theorem written_words (words : List (List Char)) :
    written (words.map Part.word) = words.map Mark.word := by
  induction words with
  | nil => rfl
  | cons letters rest ih => rw [List.map_cons, written, ih, Part.written, List.map_cons,
      List.singleton_append]

mutual
theorem gather_part (part : Part) (rest : List Mark) (stack : List (Bracket × List Part))
    (parts : List Part) :
    gather (part.written ++ rest) stack parts = gather rest stack (parts ++ [part]) := by
  cases part with
  | word letters => rfl
  | group bracket inner =>
    rw [Part.written, List.cons_append, List.append_assoc, List.singleton_append, gather,
      gather_written inner, gather, if_pos rfl, List.nil_append]

theorem gather_written (inner : List Part) (rest : List Mark) (stack : List (Bracket × List Part))
    (parts : List Part) :
    gather (written inner ++ rest) stack parts = gather rest stack (parts ++ inner) := by
  cases inner with
  | nil => rw [written, List.nil_append, List.append_nil]
  | cons part others =>
    rw [written, List.append_assoc, gather_part part, gather_written others, List.append_assoc,
      List.singleton_append]
end

theorem innerLevels_append (first second : List Part) :
    innerLevels (first ++ second) = innerLevels first ++ innerLevels second := by
  induction first with
  | nil => rfl
  | cons part rest ih => rw [List.cons_append, innerLevels, innerLevels, ih, List.append_assoc]

theorem innerLevels_words (words : List (List Char)) : innerLevels (words.map Part.word) = [] := by
  induction words with
  | nil => rfl
  | cons letters rest ih => rw [List.map_cons, innerLevels, ih, Part.levels, List.nil_append]

/-! What a text shows wherever it stands, if no word goes on behind it. -/

def Shows (text : List Char) (parts : List Part) : Prop :=
  ∀ rest, Text.Ends isWordPart rest →
    marks (.outside []) (text ++ rest) = written parts ++ marks (.outside []) rest

theorem Shows.outline {text : String} {parts : List Part} (shows : Shows text.toList parts) :
    outline text = some parts := by
  have whole := shows [] (Text.ends_nil _)
  rw [List.append_nil] at whole
  rw [Outline.outline, whole, gather_written]
  rfl

theorem Shows.append {first second : List Char} {parts parts' : List Part}
    (shows : Shows first parts) (shows' : Shows second parts')
    (ends : Text.Ends isWordPart second) : Shows (first ++ second) (parts ++ parts') := by
  intro rest stops
  have behind : Text.Ends isWordPart (second ++ rest) := by
    cases second with
    | nil => exact stops
    | cons character tail => exact Text.ends_cons (ends character rfl) _
  rw [List.append_assoc, shows _ behind, shows' rest stops, written_append, List.append_assoc]

theorem marks_outside_cons {character : Char} (other : isWordPart character = false)
    (quote : character ≠ '"') (letters rest : List Char) :
    marks (.outside letters) (character :: rest) = ended letters ++
      ((Mark.ofCharacter? character).toList ++ marks (.outside []) rest) := by
  rw [marks, if_neg (by simp [other]), if_neg quote]

theorem shows_bracketed (bracket : Bracket) {text : List Char} {parts : List Part}
    (shows : Shows text parts) :
    Shows (bracket.opening :: (text ++ [bracket.closing])) [.group bracket parts] := by
  intro rest _
  have closes : Text.Ends isWordPart (bracket.closing :: rest) := by
    cases bracket <;> exact Text.ends_cons (by decide) rest
  have opened (tail : List Char) : marks (.outside []) (bracket.opening :: tail) =
      .opening bracket :: marks (.outside []) tail := by
    cases bracket <;> exact marks_outside_cons (by decide) (by decide) [] tail
  have closed (tail : List Char) : marks (.outside []) (bracket.closing :: tail) =
      .closing bracket :: marks (.outside []) tail := by
    cases bracket <;> exact marks_outside_cons (by decide) (by decide) [] tail
  rw [List.cons_append, List.append_assoc, List.singleton_append, opened, shows _ closes, closed,
    written, written, Part.written]
  simp

theorem shows_cons {character : Char} (other : isWordPart character = false)
    (quote : character ≠ '"') (plain : Mark.ofCharacter? character = none) {text : List Char}
    {parts : List Part} (shows : Shows text parts) : Shows (character :: text) parts := by
  intro rest stops
  rw [List.cons_append, marks_outside_cons other quote, plain, shows rest stops]
  rfl

/-! Plain texts: words and what is neither a quote nor a bracket. -/

def isPlain (character : Char) : Bool :=
  character != '"' && (Mark.ofCharacter? character).isNone

theorem marks_of_ends {rest : List Char} (ends : Text.Ends isWordPart rest) (letters : List Char) :
    marks (.outside letters) rest = ended letters ++ marks (.outside []) rest := by
  cases rest with
  | nil => simp [marks, ended]
  | cons character tail =>
    have other : ¬ isWordPart character = true := by simp [ends character rfl]
    rw [marks, marks, if_neg other, if_neg other]
    rfl

theorem ended_words (letters : List Char) : ∃ words : List (List Char),
    (∀ word ∈ words, word ⊆ letters) ∧ ended letters = words.map Mark.word := by
  cases letters with
  | nil => exact ⟨[], nofun, rfl⟩
  | cons first others => exact ⟨[first :: others], by simp, rfl⟩

/-- The words of a plain text are made of its characters, and of the letters before it. -/
theorem words_of_plain {text : List Char} (plain : ∀ character ∈ text, isPlain character = true)
    (letters : List Char) : ∃ words : List (List Char),
      (∀ word ∈ words, word ⊆ letters ++ text) ∧ ∀ rest, Text.Ends isWordPart rest →
        marks (.outside letters) (text ++ rest) =
          words.map Mark.word ++ marks (.outside []) rest := by
  induction text generalizing letters with
  | nil =>
    obtain ⟨words, made, written⟩ := ended_words letters
    refine ⟨words, by simpa using made, fun rest ends => ?_⟩
    rw [List.nil_append, marks_of_ends ends, written]
  | cons character text ih =>
    obtain ⟨own, plain⟩ := List.forall_mem_cons.mp plain
    cases part : isWordPart character with
    | true =>
      obtain ⟨words, made, shows⟩ := ih plain (letters ++ [character])
      refine ⟨words, by simpa using made, fun rest ends => ?_⟩
      rw [List.cons_append, marks, if_pos part, shows rest ends]
    | false =>
      -- The letters so far are a word of their own, and the rest starts without any.
      obtain ⟨first, made, written⟩ := ended_words letters
      obtain ⟨others, made', shows⟩ := ih plain []
      simp only [isPlain, Bool.and_eq_true, bne_iff_ne, Option.isNone_iff_eq_none] at own
      refine ⟨first ++ others, ?_, fun rest ends => ?_⟩
      · intro word inside
        rcases List.mem_append.mp inside with early | late
        · exact fun _ letter => List.mem_append_left _ (made word early letter)
        · exact fun _ letter => List.mem_append_right _
            (List.mem_cons_of_mem _ (made' word late letter))
      · rw [List.cons_append, marks_outside_cons part own.1, own.2, shows rest ends, written]
        simp

/-! Texts without a connective outside brackets, and texts that are unambiguous throughout. -/

def Quiet (text : List Char) : Prop :=
  ∃ parts, Shows text parts ∧ parts.any Part.isConnective = false ∧
    ∀ level ∈ innerLevels parts, Unambiguous level

def Orderly (text : List Char) : Prop :=
  ∃ parts, Shows text parts ∧ ∀ level ∈ levels parts, Unambiguous level

theorem unambiguous_of_no_connective {level : List Part}
    (none : level.any Part.isConnective = false) : Unambiguous level := by
  have zero := List.countP_eq_zero.mpr (List.any_eq_false.mp none)
  refine ⟨by omega, fun present => ?_⟩
  rw [none] at present
  contradiction

theorem Quiet.orderly {text : List Char} (quiet : Quiet text) : Orderly text := by
  obtain ⟨parts, shows, none, within⟩ := quiet
  exact ⟨parts, shows, List.forall_mem_cons.mpr ⟨unambiguous_of_no_connective none, within⟩⟩

theorem Quiet.append {first second : List Char} (quiet : Quiet first) (quiet' : Quiet second)
    (ends : Text.Ends isWordPart second) : Quiet (first ++ second) := by
  obtain ⟨parts, shows, none, within⟩ := quiet
  obtain ⟨parts', shows', none', within'⟩ := quiet'
  refine ⟨parts ++ parts', shows.append shows' ends, by rw [List.any_append, none, none']; rfl, ?_⟩
  rw [innerLevels_append]
  exact List.forall_mem_append.mpr ⟨within, within'⟩

theorem Orderly.bracketed {text : List Char} (orderly : Orderly text) (bracket : Bracket) :
    Quiet (bracket.opening :: (text ++ [bracket.closing])) := by
  obtain ⟨parts, shows, within⟩ := orderly
  refine ⟨[.group bracket parts], shows_bracketed bracket shows, rfl, ?_⟩
  rwa [innerLevels, innerLevels, Part.levels, List.append_nil]

theorem quiet_cons {character : Char} (other : isWordPart character = false)
    (plain : isPlain character = true) {text : List Char} (quiet : Quiet text) :
    Quiet (character :: text) := by
  simp only [isPlain, Bool.and_eq_true, bne_iff_ne, Option.isNone_iff_eq_none] at plain
  obtain ⟨parts, shows, held⟩ := quiet
  exact ⟨parts, shows_cons other plain.1 plain.2 shows, held⟩

/-- A connective ends with one of two letters. -/
theorem quiet_of_plain {text : List Char} (plain : ∀ character ∈ text,
    isPlain character = true ∧ character ≠ 'D' ∧ character ≠ 'R') : Quiet text := by
  obtain ⟨words, made, shows⟩ := words_of_plain (fun character inside => (plain character inside).1) []
  refine ⟨words.map Part.word, fun rest ends => ?_, ?_, ?_⟩
  · rw [shows rest ends, written_words]
  · rw [List.any_map]
    refine List.any_eq_false.mpr fun word inside connective => ?_
    have letters (letter : Char) (within : letter ∈ word) : letter ≠ 'D' ∧ letter ≠ 'R' :=
      (plain letter (made word inside within)).2
    simp only [Function.comp_apply, Part.isConnective, isConnective, Bool.or_eq_true,
      beq_iff_eq] at connective
    rcases connective with rfl | rfl
    · exact (letters 'D' (by decide)).1 rfl
    · exact (letters 'R' (by decide)).2 rfl
  · rw [innerLevels_words]
    exact nofun

theorem quiet_of_checked {text : List Char}
    (checked : (text.all fun character =>
      isPlain character && character != 'D' && character != 'R') = true) : Quiet text := by
  refine quiet_of_plain fun character inside => ?_
  have held := List.all_eq_true.mp checked character inside
  simpa [and_assoc] using held

theorem quiet_nil : Quiet [] :=
  quiet_of_plain nofun

theorem marks_letters {text : List Char}
    (parts : ∀ character ∈ text, isWordPart character = true) (letters rest : List Char) :
    marks (.outside letters) (text ++ rest) = marks (.outside (letters ++ text)) rest := by
  induction text generalizing letters with
  | nil => rw [List.nil_append, List.append_nil]
  | cons character text ih =>
    obtain ⟨own, others⟩ := List.forall_mem_cons.mp parts
    rw [List.cons_append, marks, if_pos own, ih others, List.append_assoc, List.singleton_append]

theorem shows_word {word : List Char} (parts : ∀ character ∈ word, isWordPart character = true)
    (filled : word ≠ []) : Shows word [.word word] := by
  intro rest ends
  rw [marks_letters parts, List.nil_append, marks_of_ends ends, ended, if_neg (by simpa using filled)]
  rfl

theorem quiet_word {word : List Char} (parts : ∀ character ∈ word, isWordPart character = true)
    (filled : word ≠ []) (other : isConnective word = false) : Quiet word :=
  ⟨[.word word], shows_word parts filled, by simp [Part.isConnective, other], nofun⟩

/-! Quoted texts show nothing. -/

theorem marks_inside_escape (character : Char) (rest : List Char) :
    marks .inside ('\\' :: character :: rest) = marks .inside rest := by
  rw [marks, if_neg (by decide), if_pos rfl, marks]

theorem marks_inside_plain {character : Char} (quote : character ≠ '"') (slash : character ≠ '\\')
    (rest : List Char) : marks .inside (character :: rest) = marks .inside rest := by
  rw [marks, if_neg quote, if_neg slash]

theorem marks_inside_digit {code : Nat} (small : code < 16) (rest : List Char) :
    marks .inside (Nat.digitChar code :: rest) = marks .inside rest := by
  have plain : ∀ code < 16, Nat.digitChar code ≠ '"' ∧ Nat.digitChar code ≠ '\\' := by decide
  exact marks_inside_plain (plain code small).1 (plain code small).2 rest

theorem marks_escaped (character : Char) (rest : List Char) :
    marks .inside (Text.escaped character ++ rest) = marks .inside rest := by
  unfold Text.escaped
  split_ifs with quote slash backspace formFeed lineFeed carriage tab control
  iterate 7 exact marks_inside_escape _ rest
  · calc marks .inside (['\\', 'u', '0', '0', Nat.digitChar (character.toNat / 16),
            Nat.digitChar (character.toNat % 16)] ++ rest)
        = marks .inside ('0' :: '0' :: Nat.digitChar (character.toNat / 16) ::
            Nat.digitChar (character.toNat % 16) :: rest) := marks_inside_escape 'u' _
      _ = marks .inside (Nat.digitChar (character.toNat / 16) ::
            Nat.digitChar (character.toNat % 16) :: rest) := by
          rw [marks_inside_plain (by decide) (by decide),
            marks_inside_plain (by decide) (by decide)]
      _ = marks .inside rest := by
          rw [marks_inside_digit (by omega), marks_inside_digit (by omega)]
  · exact marks_inside_plain quote slash rest

theorem marks_body (characters rest : List Char) :
    marks .inside (characters.flatMap Text.escaped ++ rest) = marks .inside rest := by
  induction characters with
  | nil => rfl
  | cons character characters ih => rw [List.flatMap_cons, List.append_assoc, marks_escaped, ih]

theorem quiet_quoted (content : String) : Quiet (Text.quoted content).toList := by
  refine ⟨[], fun rest _ => ?_, rfl, nofun⟩
  rw [Text.quoted_toList, List.cons_append, List.append_assoc, List.singleton_append, marks,
    if_neg (by decide), if_pos rfl, marks_body, marks, if_pos rfl]
  rfl

end VectorQuery.Outline
