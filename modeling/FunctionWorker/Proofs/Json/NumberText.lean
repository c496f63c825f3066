import FunctionWorker.Proofs.Json.RoundTrip

/-!
# Documents whose numbers keep their text

A document of JSON, with numbers and texts spelled in any way that JSON allows, is decoded and
encoded again. What comes out is the document, up to its layout and the order of members, and every
number in it still has all of its digits.

Results:
1. `json_reads`: the scalars and the names of JSON are read.
2. `value_tidy`, `tree_tidy`: a document without repeated names and with normal numbers stands for the
   same value, and is what is written of that value.
3. `encode_numbers`: decoding, encoding and decoding again.
-/

namespace FunctionWorker.Json

open Bytes GrammarLemmas RoundTripLemmas

/-! ## Documents of JSON -/

/-- The scalars of a document. -/
inductive Token where
  | null
  | bool (b : Bool)
  | number (l : NumberLiteral)
  | text (s : String)

namespace Token

/-- The octets are the scalar. -/
inductive Sign : Token → Bytes → Prop
  | null : Sign .null (ofText "null")
  | bool (b : Bool) : Sign (.bool b) (ofText (boolText b))
  | number (l : NumberLiteral) : Sign (.number l) (ofText l.text)
  | text {s : String} {sign : Bytes} : Quoted s sign → Sign (.text s) sign

/-- The value that a scalar stands for. A number is the text of its literal, in normal form. -/
def value : Token → Value
  | .null => .null
  | .bool b => .bool b
  | .number l => .number (.numeral l.normal.text)
  | .text s => .text s

def normal : Token → Token
  | .number l => .number l.normal
  | t => t

theorem value_normal (t : Token) : t.normal.value = t.value := by
  cases t with
  | number l => rw [normal, value, value, l.normal_normal]
  | null | bool b | text s => rfl

end Token

/-- How JSON spells scalars and names. -/
def json : Lexicon Token String := ⟨Token.Sign, Quoted⟩

namespace Document

/-- The value that a document of JSON stands for. -/
def toValue (d : Document Token String) : Value := d.value Token.value id

/-- The document with each name once in an object, in order, and with all numbers in normal form. -/
def tidy : Document Token String → Document Token String :=
  fold (fun t => .scalar t.normal) .list fun ms => .object (membersOf ms)

/-! ## Tidy documents -/

theorem tidy_list (items : List (Document Token String)) :
    (list items).tidy = .list (items.map tidy) := fold_list _ _ _ items

theorem tidy_object (members : List (String × Document Token String)) :
    (object members).tidy = .object (membersOf (members.map fun m => (m.1, m.2.tidy))) :=
  fold_object _ _ _ members

theorem toValue_list (items : List (Document Token String)) :
    (list items).toValue = .array (items.map toValue) := value_list _ _ items

theorem toValue_object (members : List (String × Document Token String)) :
    (object members).toValue = .object (membersOf (members.map fun m => (m.1, m.2.toValue))) :=
  value_object _ _ members

/-- A document and its tidy form stand for the same value. -/
theorem toValue_tidy (d : Document Token String) : d.tidy.toValue = d.toValue := by
  induction d using byParts with
  | scalar t => exact t.value_normal
  | list items ih =>
    rw [tidy_list, toValue_list, toValue_list, List.map_map]
    exact congrArg Value.array (List.map_congr_left ih)
  | object members ih =>
    have hmembers : (members.map fun m => (m.1, m.2.toValue)) =
        (members.map fun m => (m.1, m.2.tidy)).map fun m => (m.1, m.2.toValue) := by
      rw [List.map_map]
      exact List.map_congr_left fun m hm => congrArg (m.1, ·) (ih m hm).symm
    rw [tidy_object, toValue_object, toValue_object, hmembers, membersOf_map toValue,
      membersOf_map toValue, membersOf_eq_self (ascending_membersOf _)]

/-- What is written of the value is the tidy document. -/
theorem tree_toValue (d : Document Token String) :
    d.toValue.tree = d.tidy.tree (fun t => t.value.tree) id := by
  induction d using byParts with
  | scalar t =>
    change t.value.tree = t.normal.value.tree
    rw [t.value_normal]
  | list items ih =>
    rw [toValue_list, tidy_list, tree_list, Value.tree, treesOf_eq_map, List.map_map, List.map_map]
    exact congrArg Tree.array (List.map_congr_left ih)
  | object members ih =>
    have hmembers : (members.map fun m => (m.1, m.2.toValue)).map (fun m => (m.1, m.2.tree)) =
        (members.map fun m => (m.1, m.2.tidy)).map
          fun m => (m.1, m.2.tree (fun t => t.value.tree) id) := by
      rw [List.map_map, List.map_map]
      exact List.map_congr_left fun m hm => congrArg (m.1, ·) (ih m hm)
    rw [toValue_object, tidy_object, tree_object, Value.tree, membersTree_eq_map,
      ← membersOf_map Value.tree, hmembers, membersOf_map fun d : Document Token String => d.tree _ id]
    rfl

/-- Tidying loses members, but it neither adds names nor opens containers. -/
theorem names_tidy (d : Document Token String) : d.tidy.names ⊆ d.names := by
  induction d using byParts with
  | scalar t => exact List.nil_subset _
  | list items ih =>
    intro n hn
    rw [tidy_list, mem_names_list] at hn
    obtain ⟨_, hmem, hn⟩ := hn
    obtain ⟨d, hd, rfl⟩ := List.mem_map.1 hmem
    exact mem_names_list.2 ⟨d, hd, ih d hd hn⟩
  | object members ih =>
    intro n hn
    rw [tidy_object, mem_names_object] at hn
    obtain ⟨_, hmem, hn⟩ := hn
    obtain ⟨m, hm, rfl⟩ := List.mem_map.1 (mem_of_mem_membersOf hmem)
    exact mem_names_object.2 ⟨m, hm, hn.imp_right fun hn => ih m hm hn⟩

theorem depth_tidy (d : Document Token String) : ∀ n, d.depth ≤ n → d.tidy.depth ≤ n := by
  induction d using byParts with
  | scalar t => exact fun n _ => Nat.zero_le n
  | list items ih =>
    intro n hn
    obtain ⟨inner, rfl, hinner⟩ := depth_list_le_iff.1 hn
    rw [tidy_list]
    refine depth_list_le_iff.2 ⟨inner, rfl, List.forall_mem_map.2 fun d hd => ?_⟩
    exact ih d hd inner (hinner d hd)
  | object members ih =>
    intro n hn
    obtain ⟨inner, rfl, hinner⟩ := depth_object_le_iff.1 hn
    rw [tidy_object]
    refine depth_object_le_iff.2 ⟨inner, rfl, fun _ hmem => ?_⟩
    obtain ⟨m, hm, rfl⟩ := List.mem_map.1 (mem_of_mem_membersOf hmem)
    exact ih m hm inner (hinner m hm)

/-- All scalars of the tidy document are scalars of the document, in normal form. -/
theorem scalars_tidy (d : Document Token String) :
    ∀ t ∈ d.tidy.scalars, ∃ source ∈ d.scalars, t = source.normal := by
  induction d using byParts with
  | scalar t =>
    intro s hs
    obtain rfl := List.mem_singleton.1 hs
    exact ⟨t, List.mem_cons_self, rfl⟩
  | list items ih =>
    intro t ht
    rw [tidy_list, mem_scalars_list] at ht
    obtain ⟨_, hmem, ht⟩ := ht
    obtain ⟨d, hd, rfl⟩ := List.mem_map.1 hmem
    obtain ⟨source, hsource, heq⟩ := ih d hd t ht
    exact ⟨source, mem_scalars_list.2 ⟨d, hd, hsource⟩, heq⟩
  | object members ih =>
    intro t ht
    rw [tidy_object, mem_scalars_object] at ht
    obtain ⟨_, hmem, ht⟩ := ht
    obtain ⟨m, hm, rfl⟩ := List.mem_map.1 (mem_of_mem_membersOf hmem)
    obtain ⟨source, hsource, heq⟩ := ih m hm t ht
    exact ⟨source, mem_scalars_object.2 ⟨m, hm, hsource⟩, heq⟩

end Document

/-! ## Reading and writing -/

/-- The scalars and the names of JSON are read. -/
theorem json_reads : json.Reads true Token.value id where
  scalars h := by
    cases h with
    | null =>
      rw [ofText_eq]
      exact ⟨.null, rfl, fun rest _ => scalar_null rest⟩
    | bool b =>
      rw [ofText_eq]
      exact ⟨.bool b, rfl, fun rest _ => scalar_bool b rest⟩
    | number l =>
      refine ⟨.number l.read, ?_, fun rest hrest => scalar_literal l hrest⟩
      rw [scalarValue?, if_pos rfl, asNumeral_read]
      rfl
    | text hquoted =>
      obtain ⟨body, rfl, hread⟩ := stringBody_quoted hquoted
      refine ⟨.text _, rfl, fun rest _ => ?_⟩
      change (stringBody (body ++ rest)).map _ = _
      rw [hread]
      rfl
  names := namesRead_quoted

/-- A scalar in normal form is laid out as itself. -/
theorem sign_layout (style : Style) (t : Token) (n : Nat) :
    Token.Sign t.normal (ofChars (t.value.tree.layout style n)) := by
  cases t with
  | null =>
    have h := Token.Sign.null
    rwa [ofText_eq] at h
  | bool b =>
    have h := Token.Sign.bool b
    rwa [ofText_eq] at h
  | number l =>
    have h := Token.Sign.number l.normal
    rwa [ofText_eq] at h
  | text s => exact .text (quoted_quoteText style.caution s)

/-- A document of JSON is decoded as the value for which it stands. -/
theorem decode_source {payload : Bytes} {d : Document Token String} (c : Codec)
    (hpayload : json.Writes payload d) (hdepth : d.depth ≤ maxDepth) (hnames : numeralName ∉ d.names) :
    c.decode ⟨true⟩ .untyped payload = .ok (.untyped d.toValue) := by
  obtain ⟨hblanks, hspells, hrest⟩ := hpayload
  have hread := read_spelled json_reads d hspells hdepth (fun n hn => ?_) (ends_of_blank hrest)
  · exact decode_of_read c hread hblanks hrest
  · have hne : n ≠ numeralName := by
      rintro rfl
      exact hnames hn
    simpa using hne

/-- What is written of a document's value is the document in its tidy form. -/
theorem encode_source {c : Codec} (hc : c.validate ⟨true⟩ = .ok ()) (d : Document Token String) :
    ∃ out, c.encode (.untyped d.toValue) = .ok out ∧ json.Writes out d.tidy := by
  have hstyle := style_blank hc
  obtain ⟨rest, hrest, hdocument⟩ := write_octets c.style d.toValue.tree
  have hspells : Spells json (ofChars (d.toValue.tree.layout c.style 0) ++ rest) d.tidy rest := by
    rw [d.tree_toValue]
    refine spells_layout hstyle d.tidy 0 rest (fun t ht n => ?_) fun name _ =>
      quoted_quoteText c.style.caution name
    obtain ⟨source, _, rfl⟩ := d.scalars_tidy t ht
    rw [source.value_normal]
    exact sign_layout c.style source n
  refine ⟨_, rfl, ?_⟩
  rw [hdocument]
  exact @Lexicon.Writes.mk _ _ json [] _ rest d.tidy TokensLemmas.blank_nil hspells hrest

/-- Where numbers keep their text, a document of JSON is decoded and encoded again, and then it is the
same document in its tidy form: each of its numbers is one of the document, with all digits and at most
the letter and the sign of its exponent changed. Decoding it again gives the same value. -/
theorem encode_numbers {c₁ c₂ c₃ : Codec} {payload : Bytes} {d : Document Token String}
    (hpayload : json.Writes payload d) (hdepth : d.depth ≤ 127) (hnames : numeralName ∉ d.names)
    (hc : c₂.validate ⟨true⟩ = .ok ()) :
    c₁.decode ⟨true⟩ .untyped payload = .ok (.untyped d.toValue) ∧
      ∃ out, c₂.encode (.untyped d.toValue) = .ok out ∧ json.Writes out d.tidy ∧
        (∀ l, .number l ∈ d.tidy.scalars → ∃ source, .number source ∈ d.scalars ∧ l = source.normal) ∧
        c₃.decode ⟨true⟩ .untyped out = .ok (.untyped d.toValue) := by
  obtain ⟨out, hout, hwrites⟩ := encode_source hc d
  refine ⟨decode_source c₁ hpayload hdepth hnames, out, hout, hwrites, fun l hl => ?_, ?_⟩
  · obtain ⟨source, hsource, heq⟩ := d.scalars_tidy _ hl
    cases source with
    | number source =>
      cases heq
      exact ⟨source, hsource, rfl⟩
    | null | bool b | text s => cases heq
  · rw [← d.toValue_tidy]
    exact decode_source c₃ hwrites (d.depth_tidy _ hdepth) fun h => hnames (d.names_tidy h)

/-- The literal 1.50E3. -/
def fifteenHundred : NumberLiteral where
  negative := false
  whole := ⟨['1'], List.all_eq_true.1 rfl, List.cons_ne_nil _ _⟩
  plain := by decide
  fraction := some ⟨['5', '0'], List.all_eq_true.1 rfl, List.cons_ne_nil _ _⟩
  exponent := some ⟨true, .unstated, ⟨['3'], List.all_eq_true.1 rfl, List.cons_ne_nil _ _⟩⟩

/-- A list of an integer beyond 64 bits and a number with an exponent. -/
def longNumbers : Document Token String :=
  .list [.scalar (.number (literalOf 123456789012345678901)), .scalar (.number fifteenHundred)]

theorem writes_longNumbers : json.Writes (ofText "[123456789012345678901, 1.50E3]") longNumbers := by
  have hoctets : ofText "[123456789012345678901, 1.50E3]" =
      [] ++ openBracket :: ([] ++ (ofText (literalOf 123456789012345678901).text ++
        ([] ++ comma :: [0x20] ++ (ofText fifteenHundred.text ++ ([] ++ closeBracket :: []))))) := by
    rw [ofText_eq, ofText_eq, ofText_eq]
    decide
  rw [hoctets]
  exact .mk TokensLemmas.blank_nil (.list (.cons (.first TokensLemmas.blank_nil) (.scalar (.number _))
    (.cons (.later TokensLemmas.blank_nil (by decide)) (.scalar (.number _))
      (.nil TokensLemmas.blank_nil)))) TokensLemmas.blank_nil

/-- All digits of both numbers are on the several lines that come out. -/
theorem encode_longNumbers :
    Codec.decode ⟨true⟩ .default .untyped (ofText "[123456789012345678901, 1.50E3]") =
        .ok (.untyped longNumbers.toValue) ∧
      ∃ out, Codec.encode ⟨true, "", "\t", false, true⟩ (.untyped longNumbers.toValue) = .ok out ∧
        json.Writes out longNumbers.tidy ∧
        (∀ l, .number l ∈ longNumbers.tidy.scalars →
          ∃ source, .number source ∈ longNumbers.scalars ∧ l = source.normal) ∧
        Codec.decode ⟨true⟩ .default .untyped out = .ok (.untyped longNumbers.toValue) :=
  encode_numbers writes_longNumbers (by decide) (by decide) rfl

end FunctionWorker.Json
