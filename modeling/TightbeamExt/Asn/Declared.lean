import TightbeamExt.Base.TypeScript
import TightbeamExt.Asn.RoundTrip

/-!
# The emitted type declarations

Beside the conversions, `derive(AsnCodec)` emits a TypeScript declaration of every wire type.  Here
its text is built as the derive builds it, read back as TypeScript reads it, and compared with what
the generated `to_js` makes of the values of the type.

## Main definitions

* `tsType`, `quoteTsProperty`, `quoteTsInterface`, `tsSection` — the emitted text.
* `declared`, `declaration` — the types it declares.
* `Inhabits` — the values of a type.

## Main results

* `parse_tsSection` — **the text of a declaration is read as the declaration.**
* `declared_types_hold` — what `decode{Name}` gives back is of the type that is declared for it.
* `Small.absent_item` — `Vec<Option<T>>` is declared `T | null[]`, which `to_js` does not keep to.
-/

namespace TightbeamExt
namespace Asn

open TypeScript

variable {ι : Type*}

/-! ### The text -/

/-- How a wire type is called. -/
structure Names (ι : Type*) where
  /-- The last segment of the path a nested field has. -/
  ident : ι → List Char
  /-- `js_name`, or the name of the type. -/
  js : ι → List Char
  /-- `field_doc_lines`: the doc comment of a field. -/
  docs : ι → String → List (List Char)

/-- `ts_type` of a leaf. -/
def LeafKind.tsType : LeafKind → String
  | .bool => "boolean"
  | .null => "null"
  | .int k => if k.big then "bigint" else "number"
  | .string => "string"
  | .text _ => "string"
  | .octetString => "Uint8Array"
  | .any => "Uint8Array"
  | .bitString => "\x7b unusedBits: number; bytes: Uint8Array \x7d"

/-- `ts_type`. -/
def tsType (N : Names ι) : FieldKind ι → List Char
  | .leaf k => k.tsType.toList
  | .nested n => N.ident n
  | .option inner => tsType N inner ++ " | null".toList
  | .vec inner => tsType N inner ++ "[]".toList
  | .setOfVec inner => tsType N inner ++ "[]".toList
  | .sequenceOf inner _ => tsType N inner ++ "[]".toList
  | .setOf inner _ => tsType N inner ++ "[]".toList

/-- `jsdoc_contract` of a leaf. -/
def LeafKind.jsdocContract : LeafKind → String
  | .bool => "Carries a BOOLEAN Sequence field as a JavaScript boolean."
  | .null => "Carries a NULL Sequence field as JavaScript null."
  | .int .u8 => "Carries an INTEGER field in the inclusive u8 range."
  | .int .u16 => "Carries an INTEGER field in the inclusive u16 range."
  | .int .u32 => "Carries an INTEGER field in the inclusive u32 range."
  | .int .u64 => "Carries an INTEGER field as a JavaScript bigint in the inclusive u64 range."
  | .int .i8 => "Carries an INTEGER field in the inclusive i8 range."
  | .int .i16 => "Carries an INTEGER field in the inclusive i16 range."
  | .int .i32 => "Carries an INTEGER field in the inclusive i32 range."
  | .int .i64 => "Carries an INTEGER field as a JavaScript bigint in the inclusive i64 range."
  | .string => "Carries a UTF-8 string Sequence field."
  | .text .ia5String => "Carries an IA5String Sequence field validated by der."
  | .text .printableString => "Carries a PrintableString Sequence field validated by der."
  | .text .teletexString => "Carries a TeletexString Sequence field validated by der."
  | .text .bmpString => "Carries a BmpString Sequence field validated by der."
  | .octetString => "Carries an octet string Sequence field as Uint8Array."
  | .bitString => "Carries a BIT STRING Sequence field as unusedBits plus bytes."
  | .text .objectIdentifier => "Carries an OBJECT IDENTIFIER Sequence field as a dotted string."
  | .any => "Carries an ANY Sequence field as opaque DER bytes."
  | .text .utcTime => "Carries a UTCTime Sequence field as an RFC 3339 string."
  | .text .generalizedTime => "Carries a GeneralizedTime Sequence field as an RFC 3339 string."

/-- `jsdoc_contract`. -/
def FieldKind.jsdocContract : FieldKind ι → String
  | .leaf k => k.jsdocContract
  | .nested _ => "Carries a nested AsnCodec value for this Sequence field."
  | .option _ =>
      "Carries an OPTIONAL Sequence field. Nullish JS values map to None, and a present value maps to Some."
  | .vec _ => "Carries a SEQUENCE OF Sequence field as a JavaScript Array."
  | .setOfVec _ => "Carries a SET OF Sequence field as a JavaScript Array."
  | .sequenceOf _ _ => "Carries a fixed-length SEQUENCE OF Sequence field as a JavaScript Array."
  | .setOf _ _ => "Carries a fixed-length SET OF Sequence field as a JavaScript Array."

/-- It is an `Option`. -/
def FieldKind.isOption : FieldKind ι → Bool
  | .option _ => true
  | _ => false

/-- `quote_ts_property`. -/
def quoteTsProperty (decl : List Char) (docLines : List (List Char)) : List Char :=
  "\t/**\n".toList ++ docLines.flatMap (fun line => "\t * ".toList ++ line ++ ['\n']) ++
    "\t */\n".toList ++ "\t".toList ++ decl ++ ";".toList

/-- `FieldKind::quote_ts_property`. -/
def FieldKind.quoteTsProperty (N : Names ι) (kind : FieldKind ι) (key : String)
    (docLines : List (List Char)) : List Char :=
  Asn.quoteTsProperty
    (key.toList ++ (if kind.isOption then "?: ".toList else ": ".toList) ++ tsType N kind) docLines

/-- The doc lines of a field in `emit_fields`. -/
def docLines (N : Names ι) (n : ι) (f : String × FieldKind ι) : List (List Char) :=
  if N.docs n f.1 = [] then [f.2.jsdocContract.toList] else N.docs n f.1

/-- `quote_ts_interface`. -/
def quoteTsInterface (jsName : List Char) (fields : List (List Char)) : List Char :=
  "export interface ".toList ++ jsName ++ " \x7b\n".toList ++ List.intercalate ['\n'] fields ++
    "\n\x7d".toList

/-- A variant of `expand_choice`. -/
def tsVariant (N : Names ι) (variant : String × ι) : List Char :=
  "\x7b ".toList ++ variant.1.toList ++ ": ".toList ++ N.ident variant.2 ++ " \x7d".toList

/-- The declaration of a wire type. -/
def tsSection (N : Names ι) (Γ : Schema ι) (n : ι) : List Char :=
  match Γ n with
  | .sequence fields _ =>
      quoteTsInterface (N.js n)
        (fields.map fun f => f.2.quoteTsProperty N f.1 (docLines N n f))
  | .enumerated _ => "export type ".toList ++ N.js n ++ " = number;".toList
  | .choice variants _ =>
      "export type ".toList ++ N.js n ++ " =\n\t| ".toList ++
        List.intercalate "\n\t| ".toList (variants.map (tsVariant N)) ++ ";".toList

/-! ### The types it declares -/

/-- `null`. -/
def tsNull : TsType := .named "null".toList

/-- The type of a leaf. -/
def LeafKind.declared : LeafKind → TsType
  | .bitString => .object [.mk "unusedBits".toList false (.named "number".toList),
      .mk "bytes".toList false (.named "Uint8Array".toList)]
  | k => .named k.tsType.toList

/-- The type of a field: what stands before the last `|`, and what stands after it. -/
def view (N : Names ι) : FieldKind ι → Option TsType × TsType
  | .leaf k => (none, k.declared)
  | .nested n => (none, .named (N.ident n))
  | .option inner => (some (join (view N inner).1 (view N inner).2), tsNull)
  -- `[]` goes with what stands after the last `|`
  | .vec inner => ((view N inner).1, .array (view N inner).2)
  | .setOfVec inner => ((view N inner).1, .array (view N inner).2)
  | .sequenceOf inner _ => ((view N inner).1, .array (view N inner).2)
  | .setOf inner _ => ((view N inner).1, .array (view N inner).2)

/-- The type of a field. -/
def declared (N : Names ι) (kind : FieldKind ι) : TsType := join (view N kind).1 (view N kind).2

/-- A member of an interface. -/
def member (N : Names ι) (f : String × FieldKind ι) : TsMember :=
  .mk f.1.toList f.2.isOption (declared N f.2)

/-- A variant of a union. -/
def variantType (N : Names ι) (variant : String × ι) : TsType :=
  .object [.mk variant.1.toList false (.named (N.ident variant.2))]

/-- The type of a wire type. -/
def declaration (N : Names ι) (Γ : Schema ι) (n : ι) : TsType :=
  match Γ n with
  | .sequence fields _ => .object (fields.map (member N))
  | .enumerated _ => .named "number".toList
  | .choice [] _ => .object []
  | .choice (variant :: variants) _ =>
      (variants.map (variantType N)).foldl .union (variantType N variant)

/-! ### The text is read as the declaration -/

/-- The tokens of a leaf. -/
def LeafKind.tokens : LeafKind → List Token
  | .bitString => [.punct '{', .word "unusedBits".toList, .punct ':', .word "number".toList,
      .punct ';', .word "bytes".toList, .punct ':', .word "Uint8Array".toList, .punct '}']
  | k => [.word k.tsType.toList]

/-- The tokens of the type of a field. -/
def tokens (N : Names ι) : FieldKind ι → List Token
  | .leaf k => k.tokens
  | .nested n => [.word (N.ident n)]
  | .option inner => tokens N inner ++ [.punct '|', .word "null".toList]
  | .vec inner => tokens N inner ++ [.punct '[', .punct ']']
  | .setOfVec inner => tokens N inner ++ [.punct '[', .punct ']']
  | .sequenceOf inner _ => tokens N inner ++ [.punct '[', .punct ']']
  | .setOf inner _ => tokens N inner ++ [.punct '[', .punct ']']

/-- An identifier. -/
def IsIdent (name : List Char) : Prop := name ≠ [] ∧ name.all isWord = true

theorem lexes_ident {name : List Char} (h : IsIdent name) : Lexes name [.word name] :=
  lexes_word h.2 h.1

theorem lexes_leaf (k : LeafKind) : Lexes k.tsType.toList k.tokens := by
  cases k with
  | bool => exact lexes_text "boolean" rfl (by decide) (by decide)
  | null => exact lexes_text "null" rfl (by decide) (by decide)
  | int k =>
    cases hk : k.big with
    | false =>
      simp only [LeafKind.tsType, LeafKind.tokens, hk]
      exact lexes_text "number" rfl (by decide) (by decide)
    | true =>
      simp only [LeafKind.tsType, LeafKind.tokens, hk]
      exact lexes_text "bigint" rfl (by decide) (by decide)
  | string => exact lexes_text "string" rfl (by decide) (by decide)
  | text _ => exact lexes_text "string" rfl (by decide) (by decide)
  | octetString => exact lexes_text "Uint8Array" rfl (by decide) (by decide)
  | any => exact lexes_text "Uint8Array" rfl (by decide) (by decide)
  | bitString => exact (lexed_text _ rfl fun rest => rfl).lexes

theorem stops_brackets : Stops "[]".toList := by
  intro c hc
  cases hc
  rfl

/-- **The type of a field, token by token.** -/
theorem lexes_tsType {N : Names ι} (hident : ∀ n, IsIdent (N.ident n)) :
    ∀ kind : FieldKind ι, Lexes (tsType N kind) (tokens N kind) := by
  have hbrackets : Lexes "[]".toList [.punct '[', .punct ']'] :=
    (lexed_text _ rfl fun rest => rfl).lexes
  have hnull : Lexes " | null".toList [.punct '|', .word "null".toList] := by
    have hbar : Lexed " | ".toList [.punct '|'] := lexed_text _ rfl fun rest => rfl
    simpa using hbar.append_lexes (lexes_text "null" rfl (by decide) (by decide))
  intro kind
  induction kind with
  | leaf k => exact lexes_leaf k
  | nested n => exact lexes_ident (hident n)
  | option inner ih => exact ih.append hnull (by simp [Stops, isWord]) (by simp)
  | vec inner ih => exact ih.append hbrackets stops_brackets (by simp)
  | setOfVec inner ih => exact ih.append hbrackets stops_brackets (by simp)
  | sequenceOf inner len ih => exact ih.append hbrackets stops_brackets (by simp)
  | setOf inner len ih => exact ih.append hbrackets stops_brackets (by simp)

/-- **The type of a field is parsed as the type it declares.** -/
theorem feed_tokens (N : Names ι) (kind : FieldKind ι) (fs : List Frame) :
    feedAll (.type {} :: fs) (tokens N kind) =
      some (.type ⟨(view N kind).1, some (view N kind).2, false⟩ :: fs) := by
  induction kind with
  | leaf k => cases k <;> rfl
  | nested n => rfl
  | option inner ih =>
    rw [tokens, feedAll_append, ih]
    rfl
  | vec inner ih | setOfVec inner ih | sequenceOf inner len ih | setOf inner len ih =>
    rw [tokens, feedAll_append, ih]
    rfl

/-- The tokens of a member. -/
def memberTokens (N : Names ι) (f : String × FieldKind ι) : List Token :=
  .word f.1.toList :: ((if f.2.isOption then [.punct '?'] else []) ++
    .punct ':' :: (tokens N f.2 ++ [.punct ';']))

theorem feed_member (N : Names ι) (f : String × FieldKind ι) (ms : List TsMember) (fs : List Frame) :
    feedAll (.members ms :: fs) (memberTokens N f) =
      some (.members (ms ++ [member N f]) :: fs) := by
  have htype (missing : Bool) :
      feedAll (.key ms f.1.toList missing :: fs) (.punct ':' :: (tokens N f.2 ++ [.punct ';'])) =
        some (.members (ms ++ [.mk f.1.toList missing (declared N f.2)]) :: fs) := by
    have hcolon : feed (.key ms f.1.toList missing :: fs) (.punct ':') =
        some (.type {} :: .value ms f.1.toList missing :: fs) := by
      cases missing <;> rfl
    rw [feedAll_cons, hcolon, Option.bind_some, feedAll_append, feed_tokens]
    rfl
  rw [memberTokens, feedAll_cons]
  show feedAll (.key ms f.1.toList false :: fs) _ = _
  unfold member
  cases hopt : f.2.isOption with
  | false =>
    rw [if_neg Bool.false_ne_true, List.nil_append]
    exact htype false
  | true =>
    rw [if_pos rfl, List.singleton_append, feedAll_cons]
    exact htype true

theorem feed_members (N : Names ι) (fs : List Frame) : ∀ (fields : List (String × FieldKind ι))
    (ms : List TsMember), feedAll (.members ms :: fs) (fields.flatMap (memberTokens N)) =
      some (.members (ms ++ fields.map (member N)) :: fs)
  | [], ms => by simp
  | f :: fields, ms => by
    rw [List.flatMap_cons, feedAll_append, feed_member, Option.bind_some, feed_members N fs fields,
      List.map_cons, List.append_assoc, List.singleton_append]

/-! ### Declarations -/

/-- What the names of a schema must be for its declarations to be TypeScript. -/
structure Emits (N : Names ι) (Γ : Schema ι) : Prop where
  /-- Nested types are identifiers. -/
  ident : ∀ n, IsIdent (N.ident n)
  /-- Declared types are identifiers. -/
  js : ∀ n, IsIdent (N.js n)
  /-- No doc comment closes the comment it is put into. -/
  docs : ∀ n key, ∀ line ∈ N.docs n key, closes line = false
  /-- Fields are identifiers. -/
  keys : ∀ n fields distinct, Γ n = .sequence fields distinct → ∀ f ∈ fields, IsIdent f.1.toList
  /-- An enum has variants, and they are identifiers. -/
  variants : ∀ n variants distinct, Γ n = .choice variants distinct →
    variants ≠ [] ∧ ∀ v ∈ variants, IsIdent v.1.toList

theorem closes_leafContract (k : LeafKind) : closes k.jsdocContract.toList = false := by
  cases k with
  | int k => cases k <;> unfold LeafKind.jsdocContract <;> exact closes_text _ rfl (by decide)
  | text k => cases k <;> unfold LeafKind.jsdocContract <;> exact closes_text _ rfl (by decide)
  | _ => unfold LeafKind.jsdocContract; exact closes_text _ rfl (by decide)

/-- No contract closes the comment it is put into. -/
theorem closes_jsdocContract (kind : FieldKind ι) : closes kind.jsdocContract.toList = false := by
  cases kind with
  | leaf k => exact closes_leafContract k
  | _ => unfold FieldKind.jsdocContract; exact closes_text _ rfl (by decide)

/-- A property, by the characters of its pieces. -/
theorem lexed_pieces {decl opening star closing tab semicolon : List Char} {declTokens : List Token}
    {lines : List (List Char)} (hdecl : Lexes decl declTokens)
    (hlines : ∀ line ∈ lines, closes line = false) (hopening : opening = ['\t', '/', '*', '*', '\n'])
    (hstar : star = ['\t', ' ', '*', ' ']) (hclosing : closing = ['\t', ' ', '*', '/', '\n'])
    (htab : tab = ['\t']) (hsemicolon : semicolon = [';']) :
    Lexed (opening ++ lines.flatMap (fun line => star ++ line ++ ['\n']) ++ closing ++ tab ++ decl ++
      semicolon) (declTokens ++ [.punct ';']) := by
  subst hopening hstar hclosing htab hsemicolon
  have htab : Lexed ['\t'] [] := fun rest => rfl
  have hbreak : Lexed ['\n', '\t'] [] := fun rest => rfl
  have hsemicolon : Lexed [';'] [.punct ';'] := fun rest => rfl
  have hopen : ∀ line ∈ ['*'] :: lines.map (['\t', ' ', '*', ' '] ++ ·), closes line = false := by
    intro line hline
    rcases List.mem_cons.1 hline with rfl | hline
    · rfl
    · obtain ⟨l, hl, rfl⟩ := List.mem_map.1 hline
      exact hlines l hl
  have hcomment := @lexed_comment _ ['\t', ' '] hopen rfl
  have hall := htab.append (hcomment.append (hbreak.append (hdecl.append_lexed hsemicolon
    (stops_cons rfl []) (List.cons_ne_nil _ _))))
  simpa only [List.flatMap_cons, List.flatMap_map, List.append_assoc, List.cons_append,
    List.nil_append] using hall

/-- A property is read as its declaration. -/
theorem lexed_quoteTsProperty {decl : List Char} {declTokens : List Token}
    {lines : List (List Char)} (hdecl : Lexes decl declTokens)
    (hlines : ∀ line ∈ lines, closes line = false) :
    Lexed (quoteTsProperty decl lines) (declTokens ++ [.punct ';']) :=
  lexed_pieces hdecl hlines String.toList_ofList String.toList_ofList String.toList_ofList
    String.toList_ofList String.toList_ofList

theorem lexed_property {N : Names ι} (hident : ∀ n, IsIdent (N.ident n))
    {f : String × FieldKind ι} (hkey : IsIdent f.1.toList) {lines : List (List Char)}
    (hlines : ∀ line ∈ lines, closes line = false) :
    Lexed (f.2.quoteTsProperty N f.1 lines) (memberTokens N f) := by
  have hcolon : Lexed ": ".toList [.punct ':'] := lexed_text _ rfl fun rest => rfl
  have hmissing : Lexed "?: ".toList [.punct '?', .punct ':'] := lexed_text _ rfl fun rest => rfl
  have htype := lexes_tsType hident f.2
  unfold FieldKind.quoteTsProperty memberTokens
  cases f.2.isOption with
  | false =>
    have hdecl := (lexes_ident hkey).append (hcolon.append_lexes htype) (by simp [Stops, isWord])
      (by simp)
    rw [List.append_assoc]
    exact lexed_quoteTsProperty hdecl hlines
  | true =>
    have hdecl := (lexes_ident hkey).append (hmissing.append_lexes htype)
      (by simp [Stops, isWord]) (by simp)
    rw [List.append_assoc]
    exact lexed_quoteTsProperty hdecl hlines

theorem docLines_open {N : Names ι} {Γ : Schema ι} (h : Emits N Γ) (n : ι)
    (f : String × FieldKind ι) : ∀ line ∈ docLines N n f, closes line = false := by
  unfold docLines
  split
  · intro line hline
    rw [List.mem_singleton.1 hline]
    exact closes_jsdocContract f.2
  · exact h.docs n f.1

theorem parse_sequence {N : Names ι} {Γ : Schema ι} (h : Emits N Γ) (n : ι)
    {fields : List (String × FieldKind ι)} (hkeys : ∀ f ∈ fields, IsIdent f.1.toList) :
    parseDecl (lex (quoteTsInterface (N.js n)
      (fields.map fun f => f.2.quoteTsProperty N f.1 (docLines N n f)))) =
        some (N.js n, .object (fields.map (member N))) := by
  have hhead : Lexed "export interface ".toList [.word "export".toList, .word "interface".toList] :=
    lexed_words _ "export" "interface" rfl rfl rfl (by decide) (by decide)
  have hopen : Lexed " \x7b\n".toList [.punct '{'] := lexed_text _ rfl fun rest => rfl
  have hclose : Lexed "\n\x7d".toList [.punct '}'] := lexed_text _ rfl fun rest => rfl
  have hbreak : Lexed ['\n'] [] := fun rest => rfl
  have hbody := lexed_intercalate hbreak fun f hf =>
    lexed_property h.ident (hkeys f hf) (docLines_open h n f)
  have hall := hhead.append ((lexes_ident (h.js n)).append_lexed
    (hopen.append (hbody.append hclose)) (by simp [Stops, isWord]) (by simp))
  rw [intercalate_nil_map] at hall
  unfold quoteTsInterface
  simp only [List.append_assoc]
  rw [hall.lexes.lex_eq]
  refine parseDecl_interface ?_
  show feedAll [.type {}] (.punct '{' :: (fields.flatMap (memberTokens N) ++ [.punct '}'])) = _
  rw [feedAll_cons]
  show feedAll [.members [], .type {}] _ = _
  rw [feedAll_append, feed_members]
  rfl

/-- The tokens of a variant. -/
def variantTokens (N : Names ι) (variant : String × ι) : List Token :=
  [.punct '{', .word variant.1.toList, .punct ':', .word (N.ident variant.2), .punct '}']

theorem lexed_tsVariant {N : Names ι} (hident : ∀ n, IsIdent (N.ident n)) {variant : String × ι}
    (hname : IsIdent variant.1.toList) : Lexed (tsVariant N variant) (variantTokens N variant) := by
  have hopen : Lexed "\x7b ".toList [.punct '{'] := lexed_text _ rfl fun rest => rfl
  have hcolon : Lexed ": ".toList [.punct ':'] := lexed_text _ rfl fun rest => rfl
  have hclose : Lexed " \x7d".toList [.punct '}'] := lexed_text _ rfl fun rest => rfl
  have hall := hopen.append ((lexes_ident hname).append_lexed (hcolon.append
    ((lexes_ident (hident variant.2)).append_lexed hclose (by simp [Stops, isWord]) (by simp)))
    (by simp [Stops, isWord]) (by simp))
  unfold tsVariant
  simp only [List.append_assoc]
  exact hall

/-- The variants of a union, after the first. -/
theorem feed_variants (N : Names ι) : ∀ (variants : List (String × ι)) (variant : String × ι)
    (done : Option TsType), ∃ done' cur',
      feedAll [.type ⟨done, none, false⟩]
          (List.intercalate [.punct '|'] ((variant :: variants).map (variantTokens N))) =
        some [.type ⟨done', some cur', false⟩] ∧
      join done' cur' =
        (variants.map (variantType N)).foldl .union (join done (variantType N variant))
  | [], variant, done => by
    refine ⟨done, variantType N variant, ?_, rfl⟩
    rw [List.map_singleton]
    simp only [List.intercalate, List.intersperse_singleton, List.flatten_singleton]
    cases done <;> rfl
  | next :: variants, variant, done => by
    obtain ⟨done', cur', hfeed, hjoin⟩ :=
      feed_variants N variants next (some (join done (variantType N variant)))
    refine ⟨done', cur', ?_, hjoin⟩
    have hfirst : feedAll [.type ⟨done, none, false⟩] (variantTokens N variant) =
        some [.type ⟨done, some (variantType N variant), false⟩] := by
      cases done <;> rfl
    rw [List.map_cons, List.map_cons, intercalate_cons_cons, feedAll_append, hfirst,
      Option.bind_some, feedAll_append]
    exact hfeed

theorem parse_alias {N : Names ι} {Γ : Schema ι} (h : Emits N Γ) (n : ι) {text : List Char}
    {read : List Token} {t : TsType} (htext : Lexed text (.punct '=' :: read))
    (hstop : Stops text) (hne : text ≠ [])
    (hfeed : feedAll [.type {}] read = some [.done t]) :
    parseDecl (lex ("export type ".toList ++ (N.js n ++ text))) = some (N.js n, t) := by
  have hhead : Lexed "export type ".toList [.word "export".toList, .word "type".toList] :=
    lexed_words _ "export" "type" rfl rfl rfl (by decide) (by decide)
  have hall := hhead.append ((lexes_ident (h.js n)).append_lexed htext hstop hne)
  rw [hall.lexes.lex_eq]
  exact parseDecl_type hfeed

/-- **The text of a declaration is read as the declaration**, whatever is documented. -/
theorem parse_tsSection {N : Names ι} {Γ : Schema ι} (h : Emits N Γ) (n : ι) :
    parseDecl (lex (tsSection N Γ n)) = some (N.js n, declaration N Γ n) := by
  unfold tsSection declaration
  cases hΓ : Γ n with
  | sequence fields distinct => exact parse_sequence h n (h.keys n fields distinct hΓ)
  | enumerated discriminants =>
    have htext : Lexed " = number;".toList [.punct '=', .word "number".toList, .punct ';'] :=
      lexed_text _ rfl fun rest => rfl
    dsimp only
    rw [List.append_assoc]
    exact parse_alias h n htext (by simp [Stops, isWord]) (by simp) rfl
  | choice variants distinct =>
    obtain ⟨hsome, hnames⟩ := h.variants n variants distinct hΓ
    cases variants with
    | nil => exact absurd rfl hsome
    | cons variant variants =>
      have hopen : Lexed " =\n\t| ".toList [.punct '=', .punct '|'] := lexed_text _ rfl fun rest => rfl
      have hbar : Lexed "\n\t| ".toList [.punct '|'] := lexed_text _ rfl fun rest => rfl
      have hend : Lexed ";".toList [.punct ';'] := lexed_text _ rfl fun rest => rfl
      have htext := hopen.append ((lexed_intercalate hbar fun v hv =>
        lexed_tsVariant h.ident (hnames v hv)).append hend)
      obtain ⟨done, cur, hfeed, hjoin⟩ := feed_variants N variants variant none
      have hall := parse_alias h n htext (by simp [Stops, isWord]) (by simp)
        (t := join done cur) (by
          show feedAll [.type {}] (List.intercalate [.punct '|']
            ((variant :: variants).map (variantTokens N)) ++ [.punct ';']) = _
          rw [feedAll_append, hfeed]
          rfl)
      dsimp only
      simp only [List.append_assoc]
      rw [hall, hjoin]
      rfl

/-! ### The values of a type -/

/-- The names a declaration may not take. -/
def builtins : List (List Char) :=
  ["boolean".toList, "null".toList, "number".toList, "bigint".toList, "string".toList,
    "Uint8Array".toList]

/-- The values of a type, where the declarations `Δ` are in force. -/
inductive Inhabits (R : Runtime) (Δ : List Char → TsType → Prop) : TsType → Js → Prop
  /-- `boolean`. -/
  | boolean (b : Bool) : Inhabits R Δ (.named "boolean".toList) (.bool b)
  /-- `null`. -/
  | null : Inhabits R Δ (.named "null".toList) .null
  /-- `number`. -/
  | number (x : JsNumber) : Inhabits R Δ (.named "number".toList) (.number x)
  /-- `bigint`. -/
  | bigint (n : ℤ) : Inhabits R Δ (.named "bigint".toList) (.bigint n)
  /-- `string`. -/
  | string (units : List UInt16) : Inhabits R Δ (.named "string".toList) (.string units)
  /-- `Uint8Array`. -/
  | bytes (octets : Octets) : Inhabits R Δ (.named "Uint8Array".toList) (.bytes octets)
  /-- A declared type. -/
  | declared {name : List Char} {t : TsType} {js : Js} : name ∉ builtins → Δ name t →
      Inhabits R Δ t js → Inhabits R Δ (.named name) js
  /-- `t[]`. -/
  | array {t : TsType} {items : List Js} : (∀ item ∈ items, Inhabits R Δ t item) →
      Inhabits R Δ (.array t) (.array items)
  /-- `t | u`, of the left type. -/
  | left {t u : TsType} {js : Js} : Inhabits R Δ t js → Inhabits R Δ (.union t u) js
  /-- `t | u`, of the right type. -/
  | right {t u : TsType} {js : Js} : Inhabits R Δ u js → Inhabits R Δ (.union t u) js
  /-- An object type: every member is read as its type, or is not there and may be missing. -/
  | object {members : List TsMember} {js : Js} (value : TsMember → Js) :
      (∀ m ∈ members, js.get R (String.ofList m.key) = .ok (value m)) →
      (∀ m ∈ members, ¬ (m.missing = true ∧ value m = .undefined) →
        Inhabits R Δ m.type (value m)) →
      Inhabits R Δ (.object members) js

/-- The declarations a schema emits, as they are read. -/
def Declares (N : Names ι) (Γ : Schema ι) (name : List Char) (t : TsType) : Prop :=
  ∃ n, parseDecl (lex (tsSection N Γ n)) = some (name, t)

/-- No container is directly over an `Option`. -/
def FieldKind.Tidy : FieldKind ι → Prop
  | .leaf _ => True
  | .nested _ => True
  | .option inner => inner.Tidy
  | .vec inner => inner.isOption = false ∧ inner.Tidy
  | .setOfVec inner => inner.isOption = false ∧ inner.Tidy
  | .sequenceOf inner _ => inner.isOption = false ∧ inner.Tidy
  | .setOf inner _ => inner.isOption = false ∧ inner.Tidy

/-- What a schema must be for its declarations to hold. -/
structure Keeps (R : Runtime) (N : Names ι) (Γ : Schema ι) : Prop where
  /-- A nested type is declared under the name its fields refer to. -/
  same : ∀ n, N.ident n = N.js n
  /-- No type is called as one of the language. -/
  fresh : ∀ n, N.js n ∉ builtins
  /-- The fields of structs. -/
  fields : ∀ n fields distinct, Γ n = .sequence fields distinct → ∀ f ∈ fields,
    f.2.Tidy ∧ f.1 ≠ Js.protoKey ∧ (f.2.isOption = true → f.1 ∉ R.objectMembers)
  /-- The variants of enums. -/
  variants : ∀ n variants distinct, Γ n = .choice variants distinct →
    ∀ v ∈ variants, v.1 ≠ Js.protoKey

section

variable {R : Runtime} {D : Der ι} {Γ : Schema ι} {N : Names ι} {Δ : List Char → TsType → Prop}

theorem view_fst_of_tidy {kind : FieldKind ι} (htidy : kind.Tidy) (hopt : kind.isOption = false) :
    (view N kind).1 = none := by
  induction kind with
  | leaf k => rfl
  | nested n => rfl
  | option inner ih => cases hopt
  | vec inner ih | setOfVec inner ih | sequenceOf inner len ih | setOf inner len ih =>
    exact ih htidy.2 htidy.1

/-- A container over no `Option` is an array of what it holds. -/
theorem join_array {inner : FieldKind ι} (h : inner.isOption = false ∧ inner.Tidy) :
    join (view N inner).1 (.array (view N inner).2) = .array (declared N inner) := by
  rw [declared, view_fst_of_tidy h.2 h.1]
  rfl

/-- An object is of an object type, member by member. -/
theorem inhabits_object {members : List TsMember} {own : List (String × Js)}
    (h : ∀ m ∈ members,
      (∃ v, own.lookup (String.ofList m.key) = some v ∧ Inhabits R Δ m.type v) ∨
      (m.missing = true ∧ own.lookup (String.ofList m.key) = none ∧
        String.ofList m.key ≠ Js.protoKey ∧ String.ofList m.key ∉ R.objectMembers)) :
    Inhabits R Δ (.object members) (.object none own) := by
  refine .object (fun m => (own.lookup (String.ofList m.key)).getD .undefined) ?_ ?_
  · intro m hm
    rcases h m hm with ⟨v, hv, -⟩ | ⟨-, hnone, hproto, hinherit⟩
    · rw [Js.get_of_lookup hv, hv]
      rfl
    · rw [Js.get_of_not_mem hnone hproto hinherit, hnone]
      rfl
  · intro m hm hpresent
    rcases h m hm with ⟨v, hv, htype⟩ | ⟨hmissing, hnone, -⟩
    · rw [hv]
      exact htype
    · exact absurd ⟨hmissing, by rw [hnone]; rfl⟩ hpresent

theorem inhabits_int (k : IntKind) (n : ℤ) :
    Inhabits R Δ (LeafKind.int k).declared (fromInt k n) := by
  have hdeclared : (LeafKind.int k).declared =
      .named (if k.big then "bigint" else "number").toList := rfl
  rw [hdeclared, fromInt]
  cases k.big with
  | false => exact .number _
  | true => exact .bigint _

theorem inhabits_bitString {unusedBits : UInt8} {bytes : Octets} {js : Js}
    (h : fromBitstring R unusedBits bytes = .ok js) :
    Inhabits R Δ LeafKind.bitString.declared js := by
  have hunused : ("unusedBits" : String) ≠ Js.protoKey := by decide
  have hbytes : ("bytes" : String) ≠ Js.protoKey := by decide
  have hobject : fromBitstring R unusedBits bytes =
      .ok (.object none [("unusedBits", .int unusedBits.toNat), ("bytes", .bytes bytes)]) := by
    unfold fromBitstring Js.empty
    rw [Js.set_eq _ hunused]
    exact Js.set_eq (R := R) _ hbytes
  rw [hobject] at h
  cases h
  refine inhabits_object fun m hm => .inl ?_
  rcases List.mem_pair.1 hm with rfl | rfl
  · refine ⟨.int unusedBits.toNat, ?_, .number _⟩
    rw [TsMember.key, String.ofList_toList]
    rfl
  · refine ⟨.bytes bytes, ?_, .bytes _⟩
    rw [TsMember.key, String.ofList_toList]
    rfl

/-- A leaf is of its type. -/
theorem inhabits_leaf {k : LeafKind} {v : Leaf} {js : Js} (h : project R k v = .ok js) :
    Inhabits R Δ k.declared js := by
  unfold project at h
  split at h
  · cases h; exact .boolean _
  · cases h; exact .null
  · cases h; exact inhabits_int _ _
  · cases h; exact .string _
  · cases h; exact .string _
  · cases h; exact .bytes _
  · exact inhabits_bitString h
  · cases h; exact .bytes _
  · cases h

/-- A union holds what each of its types holds. -/
theorem inhabits_foldl {js : Js} : ∀ {us : List TsType} {t : TsType},
    Inhabits R Δ t js ∨ (∃ u ∈ us, Inhabits R Δ u js) → Inhabits R Δ (us.foldl .union t) js
  | [], t, h => by
    rcases h with h | ⟨u, hu, -⟩
    · exact h
    · cases hu
  | u :: us, t, h => by
    refine @inhabits_foldl js us (.union t u) ?_
    rcases h with h | ⟨w, hw, h⟩
    · exact .inl (.left h)
    · rcases List.mem_cons.1 hw with rfl | hw
      · exact .inl (.right h)
      · exact .inr ⟨w, hw, h⟩

/-! ### What `to_js` stores -/

/-- How a field of a record is stored. -/
def Stored (R : Runtime) (Γ : Schema ι) (own : List (String × Js)) (f : String × FieldKind ι)
    (v : Value) : Prop :=
  (f.2.isOption = true ∧ own.lookup f.1 = none) ∨
    ∃ js, toValue R Γ f.2 v = .ok js ∧ own.lookup f.1 = some js

theorem stored_toField {f : String × FieldKind ι} {v : Value} {own : List (String × Js)} {js : Js}
    (hkey : f.1 ≠ Js.protoKey) (hfresh : own.lookup f.1 = none)
    (h : toField R Γ f.2 f.1 v (.object none own) = .ok js) :
    ∃ own', js = .object none own' ∧ (∀ key, key ≠ f.1 → own'.lookup key = own.lookup key) ∧
      Stored R Γ own' f v := by
  by_cases hnone : f.2.isOption = true ∧ v = .option none
  · obtain ⟨hopt, rfl⟩ := hnone
    obtain ⟨key, kind⟩ := f
    cases kind with
    | option inner =>
      rw [toField] at h
      cases h
      exact ⟨own, rfl, fun _ _ => rfl, .inl ⟨rfl, hfresh⟩⟩
    | _ => cases hopt
  · have hne : ∀ inner, f.2 = .option inner → v ≠ .option none := by
      rintro inner hkind rfl
      exact hnone ⟨by rw [hkind]; rfl, rfl⟩
    rw [toField_eq f.1 _ hne] at h
    cases hto : toValue R Γ f.2 v with
    | error e =>
      rw [hto] at h
      cases h
    | ok x =>
      rw [hto] at h
      dsimp only [Except.bind] at h
      rw [Js.set_eq x hkey] at h
      cases h
      refine ⟨Js.upsert f.1 x own, rfl, fun key hne => ?_, .inr ⟨x, hto, ?_⟩⟩
      · rw [Js.lookup_upsert, if_neg hne]
      · rw [Js.lookup_upsert, if_pos rfl]

/-- The fields of a record are stored one by one. -/
theorem stored_toFields : ∀ {fields : List (String × FieldKind ι)} {vs : List Value}
    {own : List (String × Js)} {js : Js}, (fields.map Prod.fst).Nodup →
    (∀ f ∈ fields, f.1 ≠ Js.protoKey) → (∀ key ∈ fields.map Prod.fst, own.lookup key = none) →
    toFields R Γ fields vs (.object none own) = .ok js →
    ∃ own', js = .object none own' ∧
      (∀ key, key ∉ fields.map Prod.fst → own'.lookup key = own.lookup key) ∧
      ∀ f ∈ fields, ∃ v, (f, v) ∈ fields.zip vs ∧ Stored R Γ own' f v := by
  intro fields
  induction fields with
  | nil =>
    intro vs own js _ _ _ h
    cases vs with
    | nil =>
      rw [toFields] at h
      cases h
      exact ⟨own, rfl, fun _ _ => rfl, fun f hf => by cases hf⟩
    | cons v vs => simp [toFields] at h
  | cons f fields ih =>
    intro vs own js hnodup hproto hfresh h
    cases vs with
    | nil => simp [toFields] at h
    | cons v vs =>
      rw [List.map_cons, List.nodup_cons] at hnodup
      obtain ⟨key, kind⟩ := f
      rw [toFields] at h
      cases hfield : toField R Γ kind key v (.object none own) with
      | error e =>
        rw [hfield] at h
        cases h
      | ok object =>
        rw [hfield] at h
        obtain ⟨own₁, rfl, hkeep, hstored⟩ := stored_toField (f := (key, kind))
          (hproto _ (List.mem_cons_self ..)) (hfresh key (List.mem_cons_self ..)) hfield
        have hfresh₁ : ∀ k ∈ fields.map Prod.fst, own₁.lookup k = none := by
          intro k hmem
          have hne : k ≠ key := fun heq => hnodup.1 (heq ▸ hmem)
          rw [hkeep k hne, hfresh k (List.mem_cons_of_mem _ hmem)]
        obtain ⟨own', rfl, hkeep', hstored'⟩ := ih hnodup.2
          (fun g hg => hproto g (List.mem_cons_of_mem _ hg)) hfresh₁ h
        refine ⟨own', rfl, fun k hk => ?_, fun g hg => ?_⟩
        · rw [List.map_cons, List.mem_cons, not_or] at hk
          rw [hkeep' k hk.2, hkeep k hk.1]
        · rcases List.mem_cons.1 hg with rfl | hg
          · -- the later fields have other names
            refine ⟨v, List.mem_cons_self .., ?_⟩
            unfold Stored at hstored ⊢
            rw [hkeep' _ hnodup.1]
            exact hstored
          · obtain ⟨w, hw, hs⟩ := hstored' g hg
            exact ⟨w, List.mem_cons_of_mem _ hw, hs⟩

/-- The items of an array are those of the container. -/
theorem mem_toItems {inner : FieldKind ι} : ∀ {vs : List Value} {items : List Js},
    toItems R Γ inner vs = .ok items → ∀ item ∈ items, ∃ v ∈ vs, toValue R Γ inner v = .ok item := by
  intro vs
  induction vs with
  | nil =>
    intro items h item hitem
    rw [toItems] at h
    cases h
    cases hitem
  | cons v vs ih =>
    intro items h item hitem
    rw [toItems] at h
    cases hto : toValue R Γ inner v with
    | error e =>
      rw [hto] at h
      cases h
    | ok x =>
      cases hrest : toItems R Γ inner vs with
      | error e =>
        rw [hto, hrest] at h
        cases h
      | ok xs =>
        rw [hto, hrest] at h
        cases h
        rcases List.mem_cons.1 hitem with rfl | hitem
        · exact ⟨v, List.mem_cons_self .., hto⟩
        · obtain ⟨w, hw, hitem⟩ := ih hrest item hitem
          exact ⟨w, List.mem_cons_of_mem _ hw, hitem⟩

/-! ### The declarations hold -/

theorem declares (h : Emits N Γ) (n : ι) : Declares N Γ (N.js n) (declaration N Γ n) :=
  ⟨n, parse_tsSection h n⟩

/-- A nested type is of the type it is declared as. -/
theorem inhabits_nested (h : Emits N Γ) (hkeeps : Keeps R N Γ) {n : ι} {js : Js}
    (hjs : Inhabits R (Declares N Γ) (declaration N Γ n) js) :
    Inhabits R (Declares N Γ) (declared N (.nested n)) js := by
  show Inhabits R _ (.named (N.ident n)) js
  rw [hkeeps.same n]
  exact .declared (hkeeps.fresh n) (declares h n) hjs

/-- A container is of the array type it is declared as. -/
theorem inhabits_items {inner : FieldKind ι} {vs : List Value} {js : Js}
    (hinner : inner.isOption = false ∧ inner.Tidy)
    (ih : ∀ v ∈ vs, inner.Tidy → ∀ js, toValue R Γ inner v = .ok js →
      Inhabits R Δ (declared N inner) js)
    (h : (toItems R Γ inner vs).map Js.array = .ok js) :
    Inhabits R Δ (join (view N inner).1 (.array (view N inner).2)) js := by
  rw [join_array hinner]
  cases hitems : toItems R Γ inner vs with
  | error e =>
    rw [hitems] at h
    cases h
  | ok items =>
    rw [hitems] at h
    cases h
    refine .array fun item hitem => ?_
    obtain ⟨v, hv, hto⟩ := mem_toItems hitems item hitem
    exact ih v hv hinner.2 item hto

theorem inhabits_record (h : Emits N Γ) (hkeeps : Keeps R N Γ) {n : ι}
    {fields : List (String × FieldKind ι)} {distinct : (fields.map Prod.fst).Nodup}
    {vs : List Value} {js : Js} (hΓ : Γ n = .sequence fields distinct)
    (ih : ∀ f v, (f, v) ∈ fields.zip vs → f.2.Tidy → ∀ js, toValue R Γ f.2 v = .ok js →
      Inhabits R (Declares N Γ) (declared N f.2) js)
    (hjs : toValue R Γ (.nested n) (.record vs) = .ok js) :
    Inhabits R (Declares N Γ) (declared N (.nested n)) js := by
  have hfields := hkeeps.fields n fields distinct hΓ
  rw [toValue] at hjs
  unfold toJs at hjs
  rw [hΓ] at hjs
  obtain ⟨own, rfl, -, hstored⟩ := stored_toFields distinct (fun f hf => (hfields f hf).2.1)
    (fun key _ => List.lookup_nil) hjs
  refine inhabits_nested h hkeeps ?_
  rw [declaration, hΓ]
  refine inhabits_object fun m hm => ?_
  obtain ⟨f, hf, rfl⟩ := List.mem_map.1 hm
  obtain ⟨htidy, hproto, hinherit⟩ := hfields f hf
  obtain ⟨v, hv, hs⟩ := hstored f hf
  rw [member, TsMember.key, TsMember.type, TsMember.missing, String.ofList_toList]
  rcases hs with ⟨hopt, hnone⟩ | ⟨x, hx, hlookup⟩
  · exact .inr ⟨hopt, hnone, hproto, hinherit hopt⟩
  · exact .inl ⟨x, hlookup, ih f v hv htidy x hx⟩

theorem inhabits_variant (h : Emits N Γ) (hkeeps : Keeps R N Γ) {n n' : ι}
    {variants : List (String × ι)} {distinct : (variants.map Prod.fst).Nodup} {name : String}
    {payload : Value} {js : Js} (hΓ : Γ n = .choice variants distinct)
    (hname : variants.lookup name = some n')
    (ih : ∀ js, toValue R Γ (.nested n') payload = .ok js →
      Inhabits R (Declares N Γ) (declared N (.nested n')) js)
    (hjs : toValue R Γ (.nested n) (.variant name payload) = .ok js) :
    Inhabits R (Declares N Γ) (declared N (.nested n)) js := by
  rw [toValue] at hjs
  unfold toJs at hjs
  rw [hΓ] at hjs
  simp only [hname] at hjs
  have hmem : (name, n') ∈ variants := by
    obtain ⟨l₁, l₂, hsplit, -⟩ := List.lookup_eq_some_iff.mp hname
    exact hsplit ▸ List.mem_append_right _ (List.mem_cons_self ..)
  have hproto := hkeeps.variants n variants distinct hΓ _ hmem
  cases hto : toJs R Γ n' payload with
  | error e =>
    rw [hto] at hjs
    cases hjs
  | ok x =>
    rw [hto] at hjs
    dsimp only [Except.bind, Js.empty] at hjs
    rw [Js.set_eq x hproto] at hjs
    cases hjs
    have hobject : Inhabits R (Declares N Γ) (variantType N (name, n'))
        (.object none (Js.upsert name x [])) := by
      refine inhabits_object fun m hm => .inl ⟨x, ?_, ?_⟩
      · rw [List.mem_singleton.1 hm, TsMember.key, String.ofList_toList, Js.lookup_upsert,
          if_pos rfl]
      · rw [List.mem_singleton.1 hm]
        exact ih x (by rw [toValue, hto])
    refine inhabits_nested h hkeeps ?_
    rw [declaration, hΓ]
    cases variants with
    | nil => cases hmem
    | cons variant variants =>
      refine inhabits_foldl ?_
      rcases List.mem_cons.1 hmem with rfl | hmem
      · exact .inl hobject
      · exact .inr ⟨_, List.mem_map_of_mem hmem, hobject⟩

/-- What `to_js` makes of a field is of its type. -/
theorem inhabits_of_typed (h : Emits N Γ) (hkeeps : Keeps R N Γ) {kind : FieldKind ι} {v : Value}
    (htyped : Typed D Γ kind v) : kind.Tidy → ∀ js, toValue R Γ kind v = .ok js →
      Inhabits R (Declares N Γ) (declared N kind) js := by
  induction htyped with
  | leaf hvalid =>
    intro _ js hjs
    rw [toValue] at hjs
    exact inhabits_leaf hjs
  | record hΓ _ _ ih => exact fun _ js hjs => inhabits_record h hkeeps hΓ ih hjs
  | enumerated hΓ _ =>
    intro _ js hjs
    rw [toValue] at hjs
    unfold toJs at hjs
    rw [hΓ] at hjs
    cases hjs
    refine inhabits_nested h hkeeps ?_
    rw [declaration, hΓ]
    exact .number _
  | variant hΓ hname _ ih =>
    exact fun _ js hjs => inhabits_variant h hkeeps hΓ hname (ih trivial) hjs
  | none =>
    intro _ js hjs
    rw [toValue] at hjs
    cases hjs
    exact .right .null
  | some _ ih =>
    intro htidy js hjs
    rw [toValue] at hjs
    exact .left (ih htidy js hjs)
  | vec _ ih =>
    intro htidy js hjs
    rw [toValue] at hjs
    exact inhabits_items htidy ih hjs
  | setOfVec _ _ ih =>
    intro htidy js hjs
    rw [toValue] at hjs
    exact inhabits_items htidy ih hjs
  | sequenceOf _ _ ih =>
    intro htidy js hjs
    rw [toValue] at hjs
    exact inhabits_items htidy ih hjs
  | setOf _ _ _ ih =>
    intro htidy js hjs
    rw [toValue] at hjs
    exact inhabits_items htidy ih hjs

end

/-- **The emitted declarations hold.**  Every one of them is read as the type of its fields; and
where nested types go by the names they are declared under, and no container is directly over an
`Option`, what `decode{Name}` gives back is of the type that is declared for it. -/
theorem declared_types_hold {R : Runtime} {D : Der ι} {Γ : Schema ι} {N : Names ι}
    (h : Emits N Γ) (hder : ∀ n bytes v, D.decode n bytes = .ok v → Typed D Γ (.nested n) v) :
    (∀ n, parseDecl (lex (tsSection N Γ n)) = some (N.js n, declaration N Γ n)) ∧
      (Keeps R N Γ → ∀ n bytes js, decodeExport R D Γ n bytes = .ok js →
        Inhabits R (Declares N Γ) (.named (N.js n)) js) := by
  refine ⟨parse_tsSection h, fun hkeeps n bytes js hjs => ?_⟩
  unfold decodeExport at hjs
  cases hdecode : D.decode n bytes with
  | error e =>
    rw [hdecode] at hjs
    cases hjs
  | ok v =>
    rw [hdecode] at hjs
    have hinhabits := inhabits_of_typed h hkeeps (hder n bytes v hdecode) trivial js (by
      rw [toValue]
      exact hjs)
    rw [← hkeeps.same n]
    exact hinhabits

/-! ### A container over an `Option` -/

/-- The type of the language a primitive or a typed array is of. -/
def Js.tsName : Js → String
  | .bool _ => "boolean"
  | .null => "null"
  | .number _ => "number"
  | .bigint _ => "bigint"
  | .string _ => "string"
  | .bytes _ => "Uint8Array"
  | _ => ""

/-- What is of a type of the language is of no other. -/
theorem tsName_of_inhabits {R : Runtime} {Δ : List Char → TsType → Prop} {t : TsType} {js : Js}
    (name : String) (h : Inhabits R Δ t js) (ht : t = .named name.toList)
    (hname : name.toList ∈ builtins) : js.tsName = name := by
  cases h with
  | declared hfresh _ _ =>
    cases ht
    exact absurd hname hfresh
  | array _ | left _ | right _ | object _ _ _ => cases ht
  | boolean _ | null | number _ | bigint _ | string _ | bytes _ =>
    exact String.toList_injective (TsType.named.inj ht)

namespace Row

/-- One struct, `Row`, with a `cells` field and an optional `note`. -/
def schema (cells : FieldKind Unit) : Schema Unit := fun _ =>
  .sequence [("cells", cells), ("note", .option (.leaf .bool))] (by simp)

/-- It is called `Row` everywhere, and only its note has a doc comment. -/
def names : Names Unit where
  ident _ := ['R', 'o', 'w']
  js _ := ['R', 'o', 'w']
  docs _ key := if key = "note" then [['o', 'n', '/', 'o', 'f', 'f']] else []

/-- The codec library on one encoding of `Row { cells: [7], note: None }`. -/
def der : Der Unit where
  text _ s := .ok s
  octetString octets := .ok octets
  bitString unusedBits bytes := .ok (unusedBits, bytes)
  any der := .ok der
  cmp _ _ := .eq
  add := Sample.der.add
  insert := Sample.der.insert
  sort := Sample.der.sort
  decode _ bytes :=
    if bytes = [0x30, 5, 0x30, 3, 2, 1, 7] then
      .ok (.record [.list [.leaf (.int 7)], .option none])
    else .error .failed
  encode _ _ := .error .failed

theorem emits (cells : FieldKind Unit) : Emits names (schema cells) := by
  have hrow : IsIdent ['R', 'o', 'w'] := ⟨by decide, by decide⟩
  have hword (name : String) {chars : List Char} (h : name = String.ofList chars)
      (hchars : IsIdent chars) : IsIdent name.toList := by
    rw [h, String.toList_ofList]
    exact hchars
  refine ⟨fun _ => hrow, fun _ => hrow, ?_, ?_, ?_⟩
  · intro n key line hline
    simp only [names] at hline
    split at hline
    · rw [List.mem_singleton.1 hline]
      rfl
    · cases hline
  · intro n fields distinct hΓ f hf
    cases hΓ
    rcases List.mem_pair.1 hf with rfl | rfl
    · exact hword "cells" rfl ⟨by decide, by decide⟩
    · exact hword "note" rfl ⟨by decide, by decide⟩
  · intro n variants distinct hΓ
    cases hΓ

theorem keeps {cells : FieldKind Unit} (hcells : cells.Tidy) (hopt : cells.isOption = false) :
    Keeps Sample.runtime names (schema cells) := by
  refine ⟨fun _ => rfl, fun _ => ?_, ?_, ?_⟩
  · have hne (name : String) {chars : List Char} (h : name = String.ofList chars)
        (hchars : chars ≠ ['R', 'o', 'w']) : ['R', 'o', 'w'] ≠ name.toList := by
      rw [h, String.toList_ofList]
      exact hchars.symm
    simp only [builtins, names, List.mem_cons, List.not_mem_nil, or_false, not_or]
    exact ⟨hne _ rfl (by decide), hne _ rfl (by decide), hne _ rfl (by decide),
      hne _ rfl (by decide), hne _ rfl (by decide), hne _ rfl (by decide)⟩
  · intro n fields distinct hΓ f hf
    cases hΓ
    rcases List.mem_pair.1 hf with rfl | rfl
    · exact ⟨hcells, (by decide : "cells" ≠ Js.protoKey), fun h => by rw [hopt] at h; cases h⟩
    · exact ⟨trivial, (by decide : "note" ≠ Js.protoKey), fun _ => by decide⟩
  · intro n variants distinct hΓ
    cases hΓ

theorem typed_of_decode (n : Unit) (bytes : Octets) (v : Value) (h : der.decode n bytes = .ok v) :
    Typed der (schema (.vec (.leaf (.int .u8)))) (.nested n) v := by
  simp only [der] at h
  split at h
  · cases h
    refine .record rfl rfl fun f w hmem => ?_
    rcases List.mem_pair.1 hmem with hpair | hpair
    · cases hpair
      refine .vec fun w hw => ?_
      rw [List.mem_singleton.1 hw]
      exact .leaf (k := .int .u8) ⟨by decide, by decide⟩
    · cases hpair
      exact .none
  · cases h

/-- `to_js` of a `Row` without a note. -/
theorem toJs_row {cells : FieldKind Unit} {v : Value} {items : List Js}
    (h : toField Sample.runtime (schema cells) cells "cells" v .empty =
      .ok (.object none [("cells", .array items)])) :
    toJs Sample.runtime (schema cells) () (.record [v, .option none]) =
      .ok (.object none [("cells", .array items)]) := by
  unfold toJs
  show toFields _ _ [("cells", cells), ("note", .option (.leaf .bool))] _ _ = _
  rw [toFields, h]
  show toFields _ _ [("note", .option (.leaf .bool))] _ _ = _
  rw [toFields, toField]
  show toFields _ _ [] _ _ = _
  rw [toFields]

end Row

/-- What is decoded is of the declared type. -/
theorem row_declared : ∃ js,
    decodeExport Sample.runtime Row.der (Row.schema (.vec (.leaf (.int .u8)))) ()
      [0x30, 5, 0x30, 3, 2, 1, 7] = .ok js ∧
    Inhabits Sample.runtime (Declares Row.names (Row.schema (.vec (.leaf (.int .u8)))))
      (.named ['R', 'o', 'w']) js := by
  have hdecode : decodeExport Sample.runtime Row.der (Row.schema (.vec (.leaf (.int .u8)))) ()
      [0x30, 5, 0x30, 3, 2, 1, 7] = .ok (.object none [("cells", .array [.int 7])]) := by
    refine Row.toJs_row ?_
    rw [toField, toItems, toValue, toItems]
    rfl
  exact ⟨_, hdecode, (declared_types_hold (Row.emits _) Row.typed_of_decode).2
    (Row.keeps ⟨rfl, trivial⟩ rfl) () _ _ hdecode⟩

/-- **`Vec<Option<u8>>` is declared `number | null[]`.**  A `Row` with a cell that is there is not
of the type that is declared for it. -/
theorem absent_item : ∃ js,
    toJs Sample.runtime (Row.schema (.vec (.option (.leaf (.int .u8))))) ()
      (.record [.list [.option (some (.leaf (.int 7)))], .option none]) = .ok js ∧
    ¬ Inhabits Sample.runtime
      (Declares Row.names (Row.schema (.vec (.option (.leaf (.int .u8)))))) (.named ['R', 'o', 'w'])
      js := by
  have hjs : toJs Sample.runtime (Row.schema (.vec (.option (.leaf (.int .u8))))) ()
      (.record [.list [.option (some (.leaf (.int 7)))], .option none]) =
        .ok (.object none [("cells", .array [.int 7])]) := by
    refine Row.toJs_row ?_
    rw [toField, toItems, toValue, toValue, toItems]
    rfl
  refine ⟨_, hjs, fun h => ?_⟩
  cases h with
  | declared _ hdeclares hobject =>
    obtain ⟨⟨⟩, hparse⟩ := hdeclares
    rw [parse_tsSection (Row.emits _)] at hparse
    cases hparse
    cases hobject with
    | object value hget htype =>
      -- the member `cells`
      have hcells := hget _ (List.mem_cons_self ..)
      have hitems := htype _ (List.mem_cons_self ..) (fun h => by cases h.1)
      rw [member, TsMember.key, String.ofList_toList, Js.get_of_lookup rfl] at hcells
      rw [member] at hitems
      rw [← Except.ok.inj hcells] at hitems
      cases hitems with
      | left hnumber =>
        exact absurd (tsName_of_inhabits "number" hnumber rfl (by simp [builtins])) (by decide)
      | right harray =>
        cases harray with
        | array hnull =>
          have hitem := hnull _ (List.mem_singleton.2 rfl)
          exact absurd (tsName_of_inhabits "null" hitem rfl (by simp [builtins])) (by decide)

end Asn
end TightbeamExt
