import Mathlib.Data.List.Basic
import Mathlib.Tactic.Linarith

/-!
# Type declarations of TypeScript

The text of a type declaration is read in two passes: into tokens, without blanks and comments, and
from tokens into a type, by a parser that takes one token after the other and keeps what it has not
finished on a stack.  `[]` binds more tightly than `|`.

Identifiers are ASCII; string literals, line comments and parentheses are left out.

## Main definitions

* `Token`, `lex` — the tokens of a text.
* `TsType`, `TsMember` — types and the members of an object type.
* `feed`, `parseDecl` — one step of the parser, and a whole declaration.

## Main results

* `Lexes.append`, `Lexed.append` — **a text is read piece by piece**.
* `lexed_comment` — a comment is skipped, unless something in it closes it.
-/

namespace TightbeamExt
namespace TypeScript

/-! ### Tokens -/

/-- A token. -/
inductive Token
  /-- An identifier or a keyword. -/
  | word (text : List Char)
  /-- A single character. -/
  | punct (c : Char)
  deriving DecidableEq, Repr

/-- A character of an identifier. -/
def isWord (c : Char) : Bool := c.isAlphanum || c == '_' || c == '$'

/-- A blank. -/
def isBlank (c : Char) : Bool := c == ' ' || c == '\t' || c == '\n'

/-- Where the reader is. -/
inductive Mode
  /-- In code, after the characters of a word that has not ended. -/
  | code (word : List Char)
  /-- In a comment. -/
  | comment
  deriving DecidableEq, Repr

/-- The word that has ended. -/
def flush : List Char → List Token
  | [] => []
  | c :: word => [.word (c :: word)]

/-- The tokens of the rest of a text. -/
def lexFrom : Mode → List Char → List Token
  | .code word, [] => flush word
  | .code word, '/' :: '*' :: rest => flush word ++ lexFrom .comment rest
  | .code word, c :: rest =>
      if isWord c then lexFrom (.code (word ++ [c])) rest
      else if isBlank c then flush word ++ lexFrom (.code []) rest
      else flush word ++ .punct c :: lexFrom (.code []) rest
  | .comment, '*' :: '/' :: rest => lexFrom (.code []) rest
  | .comment, _ :: rest => lexFrom .comment rest
  | .comment, [] => []

/-- The tokens of a text. -/
def lex (text : List Char) : List Token := lexFrom (.code []) text

/-- What follows does not go on with a word. -/
def Stops (rest : List Char) : Prop := ∀ c ∈ rest.head?, isWord c = false

/-- A piece of text is read as these tokens, whatever follows it. -/
def Lexed (text : List Char) (tokens : List Token) : Prop :=
  ∀ rest, lex (text ++ rest) = tokens ++ lex rest

/-- A piece of text is read as these tokens, if no word goes on after it. -/
def Lexes (text : List Char) (tokens : List Token) : Prop :=
  ∀ rest, Stops rest → lex (text ++ rest) = tokens ++ lex rest

section

variable {s t : List Char} {a b : List Token}

theorem stops_nil : Stops [] := by
  intro c hc
  cases hc

theorem Stops.append (hs : Stops s) (hne : s ≠ []) (rest : List Char) : Stops (s ++ rest) := by
  cases s with
  | nil => exact absurd rfl hne
  | cons c s => exact hs

theorem stops_cons {c : Char} (hc : isWord c = false) (rest : List Char) : Stops (c :: rest) := by
  intro d hd
  cases hd
  exact hc

theorem Lexed.lexes (h : Lexed s a) : Lexes s a := fun rest _ => h rest

theorem lexed_nil : Lexed [] [] := fun _ => rfl

/-- Pieces one after the other. -/
theorem Lexed.append (hs : Lexed s a) (ht : Lexed t b) : Lexed (s ++ t) (a ++ b) := fun rest => by
  rw [List.append_assoc, hs, ht, List.append_assoc]

theorem Lexed.append_lexes (hs : Lexed s a) (ht : Lexes t b) : Lexes (s ++ t) (a ++ b) :=
  fun rest hrest => by rw [List.append_assoc, hs, ht rest hrest, List.append_assoc]

/-- Pieces one after the other, the second starting apart. -/
theorem Lexes.append (hs : Lexes s a) (ht : Lexes t b) (hstop : Stops t) (hne : t ≠ []) :
    Lexes (s ++ t) (a ++ b) := fun rest hrest => by
  rw [List.append_assoc, hs _ (hstop.append hne rest), ht rest hrest, List.append_assoc]

theorem Lexes.append_lexed (hs : Lexes s a) (ht : Lexed t b) (hstop : Stops t) (hne : t ≠ []) :
    Lexed (s ++ t) (a ++ b) := fun rest => by
  rw [List.append_assoc, hs _ (hstop.append hne rest), ht rest, List.append_assoc]

theorem intercalate_cons_cons {α : Type*} (sep x y : List α) (rest : List (List α)) :
    List.intercalate sep (x :: y :: rest) = x ++ (sep ++ List.intercalate sep (y :: rest)) := by
  simp [List.intercalate]

theorem intercalate_nil_map {α β : Type*} (f : α → List β) :
    ∀ xs : List α, List.intercalate [] (xs.map f) = xs.flatMap f
  | [] => rfl
  | [x] => by simp [List.intercalate]
  | x :: y :: rest => by
    rw [List.map_cons, List.map_cons, intercalate_cons_cons, List.nil_append, ← List.map_cons,
      intercalate_nil_map f (y :: rest)]
    rfl

/-- Pieces with a separator between them. -/
theorem lexed_intercalate {sep : List Char} {sepTokens : List Token} (hsep : Lexed sep sepTokens)
    {α : Type*} {text : α → List Char} {read : α → List Token} :
    ∀ {pieces : List α}, (∀ p ∈ pieces, Lexed (text p) (read p)) →
      Lexed (List.intercalate sep (pieces.map text)) (List.intercalate sepTokens (pieces.map read))
  | [], _ => lexed_nil
  | [p], h => by simpa [List.intercalate] using h p (List.mem_singleton.2 rfl)
  | p :: q :: rest, h => by
    have hrest := lexed_intercalate hsep fun r hr => h r (List.mem_cons_of_mem _ hr)
    rw [List.map_cons, List.map_cons, List.map_cons, List.map_cons, intercalate_cons_cons,
      intercalate_cons_cons]
    exact (h p (List.mem_cons_self ..)).append (hsep.append hrest)

/-- A whole text. -/
theorem Lexes.lex_eq (h : Lexes s a) : lex s = a := by
  have hall := h [] stops_nil
  rw [List.append_nil] at hall
  rw [hall]
  exact List.append_nil a

/-- A piece that is written out. -/
theorem lexed_text (text : String) {chars : List Char} (h : text = String.ofList chars)
    (hs : Lexed chars a) : Lexed text.toList a := by
  rw [h, String.toList_ofList]
  exact hs

/-! ### Words -/

/-- The character that opens a comment is no character of a word. -/
theorem lexFrom_word {c : Char} (hc : isWord c = true) (word rest : List Char) :
    lexFrom (.code word) (c :: rest) = lexFrom (.code (word ++ [c])) rest := by
  rw [lexFrom.eq_3, if_pos hc]
  rintro _ rfl
  cases hc

theorem lexFrom_append : ∀ {s : List Char}, s.all isWord = true → ∀ (word rest : List Char),
    lexFrom (.code word) (s ++ rest) = lexFrom (.code (word ++ s)) rest
  | [], _, word, rest => by rw [List.nil_append, List.append_nil]
  | c :: s, h, word, rest => by
    rw [List.all_cons, Bool.and_eq_true] at h
    rw [List.cons_append, lexFrom_word h.1, lexFrom_append h.2, List.append_assoc]
    rfl

/-- Where no word goes on, the one before has ended. -/
theorem lexFrom_stop (word : List Char) {rest : List Char} (h : Stops rest) :
    lexFrom (.code word) rest = flush word ++ lex rest := by
  cases rest with
  | nil => exact (List.append_nil _).symm
  | cons c rest =>
    have hc : ¬ isWord c = true := by
      rw [h c rfl]
      exact Bool.false_ne_true
    by_cases hopen : ∃ tail, c = '/' ∧ rest = '*' :: tail
    · obtain ⟨tail, rfl, rfl⟩ := hopen
      rw [lex, lexFrom.eq_2, lexFrom.eq_2]
      rfl
    · have hnot : ∀ tail, c = '/' → rest = '*' :: tail → False :=
        fun tail hslash hstar => hopen ⟨tail, hslash, hstar⟩
      rw [lex, lexFrom.eq_3 _ _ _ hnot, lexFrom.eq_3 _ _ _ hnot, if_neg hc, if_neg hc]
      split <;> rfl

/-- A word. -/
theorem lexes_word (hword : s.all isWord = true) (hne : s ≠ []) : Lexes s [.word s] := by
  intro rest hrest
  rw [lex, lexFrom_append hword, List.nil_append, lexFrom_stop s hrest]
  cases s with
  | nil => exact absurd rfl hne
  | cons c s => rfl

/-- A word that is written out. -/
theorem lexes_text (text : String) {chars : List Char} (h : text = String.ofList chars)
    (hword : chars.all isWord = true) (hne : chars ≠ []) :
    Lexes text.toList [.word text.toList] := by
  rw [h, String.toList_ofList]
  exact lexes_word hword hne

/-- Two words that are written out. -/
theorem lexed_words (text first second : String) {a b : List Char} (ha : first = String.ofList a)
    (hb : second = String.ofList b) (h : text = String.ofList (a ++ ([' '] ++ (b ++ [' ']))))
    (hword : a.all isWord = true ∧ b.all isWord = true) (hne : a ≠ [] ∧ b ≠ []) :
    Lexed text.toList [.word first.toList, .word second.toList] := by
  have hspace : Lexed [' '] [] := fun rest => rfl
  rw [h, ha, hb, String.toList_ofList, String.toList_ofList, String.toList_ofList]
  exact (lexes_word hword.1 hne.1).append_lexed (hspace.append ((lexes_word hword.2 hne.2).append_lexed
    hspace (stops_cons rfl []) (List.cons_ne_nil _ _))) (stops_cons rfl _) (List.cons_ne_nil _ _)

/-! ### Comments -/

/-- It closes a comment. -/
def closes : List Char → Bool
  | '*' :: '/' :: _ => true
  | _ :: rest => closes rest
  | [] => false

theorem closes_of_notMem : ∀ {line : List Char}, '*' ∉ line → closes line = false
  | [], _ => rfl
  | c :: line, h => by
    rw [List.mem_cons, not_or] at h
    rw [closes.eq_2, closes_of_notMem h.2]
    rintro tail rfl
    exact absurd rfl h.1

theorem closes_text (text : String) {chars : List Char} (h : text = String.ofList chars)
    (hl : '*' ∉ chars) : closes text.toList = false := by
  rw [h, String.toList_ofList]
  exact closes_of_notMem hl

/-- A line of a comment. -/
theorem lexFrom_line : ∀ {line : List Char}, closes line = false → ∀ rest,
    lexFrom .comment (line ++ '\n' :: rest) = lexFrom .comment rest
  | [], _, rest => by simp [lexFrom]
  | c :: line, h, rest => by
    have hopen : ∀ tail, c :: line ≠ '*' :: '/' :: tail := by
      rintro tail heq
      rw [heq] at h
      cases h
    have hline : closes line = false := by
      rwa [closes.eq_2] at h
      rintro tail rfl rfl
      exact hopen tail rfl
    rw [List.cons_append, lexFrom.eq_5, lexFrom_line hline rest]
    rintro tail rfl heq
    cases line with
    | nil => cases heq
    | cons d line =>
      cases heq
      exact hopen line rfl

/-- **A comment is skipped**, line by line. -/
theorem lexed_comment {lines : List (List Char)} {last : List Char}
    (hlines : ∀ line ∈ lines, closes line = false) (hlast : last.all isBlank = true) :
    Lexed (['/', '*'] ++ lines.flatMap (· ++ ['\n']) ++ last ++ ['*', '/']) [] := by
  intro rest
  have hblank : ∀ {last : List Char}, last.all isBlank = true →
      lexFrom .comment (last ++ '*' :: '/' :: rest) = lexFrom (.code []) rest := by
    intro last
    induction last with
    | nil => intro _; rw [List.nil_append, lexFrom.eq_4]
    | cons c last ih =>
      intro h
      rw [List.all_cons, Bool.and_eq_true] at h
      rw [List.cons_append, lexFrom.eq_5, ih h.2]
      rintro tail rfl
      cases h.1
  have hskip : ∀ {lines : List (List Char)}, (∀ line ∈ lines, closes line = false) →
      ∀ tail, lexFrom .comment (lines.flatMap (· ++ ['\n']) ++ tail) = lexFrom .comment tail := by
    intro lines
    induction lines with
    | nil => intro _ tail; rfl
    | cons line lines ih =>
      intro h tail
      rw [List.flatMap_cons, List.append_assoc, List.append_assoc, List.singleton_append,
        lexFrom_line (h line (List.mem_cons_self ..)),
        ih fun l hl => h l (List.mem_cons_of_mem _ hl)]
  rw [lex]
  simp only [List.append_assoc, List.cons_append, List.nil_append]
  rw [lexFrom.eq_2, hskip hlines, hblank hlast]
  rfl

end

/-! ### Types -/

mutual

/-- A type. -/
inductive TsType
  /-- A keyword or a declared name. -/
  | named (name : List Char)
  /-- `t[]`. -/
  | array (item : TsType)
  /-- `t | u`. -/
  | union (left right : TsType)
  /-- `{ k: t; l?: u }`. -/
  | object (members : List TsMember)

/-- A member of an object type. -/
inductive TsMember
  /-- Its name, whether it may be missing, and its type. -/
  | mk (key : List Char) (missing : Bool) (type : TsType)

end

/-- Its name. -/
def TsMember.key : TsMember → List Char
  | .mk key _ _ => key

/-- It may be missing. -/
def TsMember.missing : TsMember → Bool
  | .mk _ missing _ => missing

/-- Its type. -/
def TsMember.type : TsMember → TsType
  | .mk _ _ type => type

/-- One more member of a union. -/
def join : Option TsType → TsType → TsType
  | none, u => u
  | some t, u => .union t u

/-! ### The parser -/

/-- A type that is being read: the members of the union that are through, the one that is not, and
an open bracket after it. -/
structure Partial where
  /-- What stands before the last `|`. -/
  done : Option TsType := none
  /-- What stands after it. -/
  cur : Option TsType := none
  /-- `[` was read. -/
  bracket : Bool := false

/-- What is being read. -/
inductive Frame
  /-- A type. -/
  | type (t : Partial)
  /-- The members of an object type, these so far. -/
  | members (ms : List TsMember)
  /-- A member, after its name. -/
  | key (ms : List TsMember) (k : List Char) (missing : Bool)
  /-- A member, up to its type. -/
  | value (ms : List TsMember) (k : List Char) (missing : Bool)
  /-- Nothing more. -/
  | done (t : TsType)

/-- An object type is through. -/
def close (ms : List TsMember) : List Frame → Option (List Frame)
  | .type ⟨done, none, false⟩ :: fs => some (.type ⟨done, some (.object ms), false⟩ :: fs)
  | _ => none

/-- One token. -/
def feed : List Frame → Token → Option (List Frame)
  | .type ⟨done, none, false⟩ :: fs, .word w => some (.type ⟨done, some (.named w), false⟩ :: fs)
  | .type ⟨done, none, false⟩ :: fs, .punct '{' =>
      some (.members [] :: .type ⟨done, none, false⟩ :: fs)
  -- a union may start with a `|`
  | .type ⟨none, none, false⟩ :: fs, .punct '|' => some (.type ⟨none, none, false⟩ :: fs)
  | .type ⟨done, some t, false⟩ :: fs, .punct '|' => some (.type ⟨some (join done t), none, false⟩ :: fs)
  | .type ⟨done, some t, false⟩ :: fs, .punct '[' => some (.type ⟨done, some t, true⟩ :: fs)
  | .type ⟨done, some t, true⟩ :: fs, .punct ']' => some (.type ⟨done, some (.array t), false⟩ :: fs)
  | .type ⟨done, some t, false⟩ :: .value ms k missing :: fs, .punct ';' =>
      some (.members (ms ++ [.mk k missing (join done t)]) :: fs)
  | .type ⟨done, some t, false⟩ :: .value ms k missing :: fs, .punct '}' =>
      close (ms ++ [.mk k missing (join done t)]) fs
  | [.type ⟨done, some t, false⟩], .punct ';' => some [.done (join done t)]
  | .members ms :: fs, .word k => some (.key ms k false :: fs)
  | .members ms :: fs, .punct '}' => close ms fs
  | .key ms k false :: fs, .punct '?' => some (.key ms k true :: fs)
  | .key ms k missing :: fs, .punct ':' =>
      some (.type ⟨none, none, false⟩ :: .value ms k missing :: fs)
  | _, _ => none

/-- Tokens one after the other. -/
def feedAll (fs : List Frame) (tokens : List Token) : Option (List Frame) := tokens.foldlM feed fs

theorem feedAll_append (fs : List Frame) (a b : List Token) :
    feedAll fs (a ++ b) = (feedAll fs a).bind fun fs => feedAll fs b :=
  List.foldlM_append ..

theorem feedAll_cons (fs : List Frame) (t : Token) (ts : List Token) :
    feedAll fs (t :: ts) = (feed fs t).bind fun fs => feedAll fs ts :=
  List.foldlM_cons ..

@[simp] theorem feedAll_nil (fs : List Frame) : feedAll fs [] = some fs := rfl

/-- The members of an interface. -/
def parseInterface (tokens : List Token) : Option TsType :=
  match feedAll [.type {}] tokens with
  | some [.type ⟨none, some (.object ms), false⟩] => some (.object ms)
  | _ => none

/-- The type after the name of an alias. -/
def parseAlias : List Token → Option TsType
  | .punct '=' :: tokens =>
      match feedAll [.type {}] tokens with
      | some [.done t] => some t
      | _ => none
  | _ => none

/-- A declaration: `export interface N { … }` or `export type N = …;`. -/
def parseDecl : List Token → Option (List Char × TsType)
  | .word e :: .word kw :: .word name :: rest =>
      if e = "export".toList ∧ kw = "interface".toList then
        (parseInterface rest).map fun t => (name, t)
      else if e = "export".toList ∧ kw = "type".toList then
        (parseAlias rest).map fun t => (name, t)
      else none
  | _ => none

theorem parseDecl_interface {name : List Char} {rest : List Token} {ms : List TsMember}
    (h : feedAll [.type {}] rest = some [.type ⟨none, some (.object ms), false⟩]) :
    parseDecl (.word "export".toList :: .word "interface".toList :: .word name :: rest) =
      some (name, .object ms) := by
  rw [parseDecl, if_pos ⟨rfl, rfl⟩, parseInterface, h]
  rfl

theorem parseDecl_type {name : List Char} {rest : List Token} {t : TsType}
    (h : feedAll [.type {}] rest = some [.done t]) :
    parseDecl (.word "export".toList :: .word "type".toList :: .word name :: .punct '=' :: rest) =
      some (name, t) := by
  have hne : ¬ ("export".toList = "export".toList ∧ "type".toList = "interface".toList) := by
    rintro ⟨-, heq⟩
    exact absurd (String.toList_injective heq) (by decide)
  rw [parseDecl, if_neg hne, if_pos ⟨rfl, rfl⟩, parseAlias, h]
  rfl

end TypeScript
end TightbeamExt
