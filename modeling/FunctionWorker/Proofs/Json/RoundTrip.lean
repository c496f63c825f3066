import FunctionWorker.Proofs.Json.Grammar

/-!
# Values that are read back

An untyped value is laid out and read again. The proof follows the value: each part is read from
its own layout, whatever stands behind it, and a container is read part by part.

Results:
1. `read_value`: a value is read from its layout, up to the order of the members in its objects.
2. `normal_eq_self`: members that are in order stay as they are.
3. `decode_encode`: any two codecs agree about a value of integers.
-/

namespace FunctionWorker.Json

open Bytes GrammarLemmas

/-! ## Definitions -/

/-- The number has a text from which it is read again. -/
def Number.ReadsBack (keepText : Bool) (n : Number) : Prop :=
  ∃ text read, n.text? = some text ∧ (if keepText then read.asNumeral else read) = n ∧
    ∀ rest, EndsNumber rest → scalar keepText (ofText text ++ rest) = .ok (.number read, rest)

mutual

/-- All numbers of the value are read back, and no object of it announces a number if the text of
numbers is kept. -/
def Value.ReadsBack (keepText : Bool) : Value → Prop
  | .number n => n.ReadsBack keepText
  | .array items => allReadBack keepText items
  | .object members => membersReadBack keepText members
  | _ => True

def allReadBack (keepText : Bool) : List Value → Prop
  | [] => True
  | v :: rest => v.ReadsBack keepText ∧ allReadBack keepText rest

def membersReadBack (keepText : Bool) : List (String × Value) → Prop
  | [] => True
  | (name, v) :: rest =>
    (keepText && name = numeralName) = false ∧ v.ReadsBack keepText ∧ membersReadBack keepText rest

end

mutual

/-- The value with the members of every object in order. -/
def Value.normal : Value → Value
  | .array items => .array (normalItems items)
  | .object members => .object (membersOf (normalMembers members))
  | v => v

def normalItems : List Value → List Value
  | [] => []
  | v :: rest => v.normal :: normalItems rest

def normalMembers : List (String × Value) → List (String × Value)
  | [] => []
  | (name, v) :: rest => (name, v.normal) :: normalMembers rest

end

mutual

/-- All numbers of the value are integers of 64 bits, signed or not. -/
def Value.Integral : Value → Prop
  | .number n => ∃ i, n = .integer i ∧ leastInteger ≤ i ∧ i ≤ greatestInteger
  | .array items => allIntegral items
  | .object members => membersIntegral members
  | _ => True

def allIntegral : List Value → Prop
  | [] => True
  | v :: rest => v.Integral ∧ allIntegral rest

def membersIntegral : List (String × Value) → Prop
  | [] => True
  | (_, v) :: rest => v.Integral ∧ membersIntegral rest

end

/-! ## Parts -/

namespace Value

mutual

/-- What holds of all scalars and is passed on by arrays and objects holds of all values. -/
theorem byParts {motive : Value → Prop} (scalar : ∀ v, v.depth = 0 → motive v)
    (array : ∀ items, (∀ v ∈ items, motive v) → motive (.array items))
    (object : ∀ members, (∀ m ∈ members, motive m.2) → motive (.object members)) :
    ∀ v, motive v
  | .null => scalar .null rfl
  | .bool b => scalar (.bool b) rfl
  | .number n => scalar (.number n) rfl
  | .text s => scalar (.text s) rfl
  | .array items => array items (byItems scalar array object items)
  | .object members => object members (byMembers scalar array object members)

theorem byItems {motive : Value → Prop} (scalar : ∀ v, v.depth = 0 → motive v)
    (array : ∀ items, (∀ v ∈ items, motive v) → motive (.array items))
    (object : ∀ members, (∀ m ∈ members, motive m.2) → motive (.object members)) :
    ∀ items : List Value, ∀ v ∈ items, motive v
  | [] => fun _ hv => nomatch hv
  | v :: rest => List.forall_mem_cons.2
      ⟨byParts scalar array object v, byItems scalar array object rest⟩

theorem byMembers {motive : Value → Prop} (scalar : ∀ v, v.depth = 0 → motive v)
    (array : ∀ items, (∀ v ∈ items, motive v) → motive (.array items))
    (object : ∀ members, (∀ m ∈ members, motive m.2) → motive (.object members)) :
    ∀ members : List (String × Value), ∀ m ∈ members, motive m.2
  | [] => fun _ hm => nomatch hm
  | (_, v) :: rest => List.forall_mem_cons.2
      ⟨byParts scalar array object v, byMembers scalar array object rest⟩

end

end Value

theorem treesOf_eq_map (items : List Value) : treesOf items = items.map Value.tree := by
  induction items with
  | nil => rfl
  | cons v rest ih => rw [treesOf, ih, List.map_cons]

theorem membersTree_eq_map (members : List (String × Value)) :
    membersTree members = members.map fun m => (m.1, m.2.tree) := by
  induction members with
  | nil => rfl
  | cons m rest ih => rw [membersTree, ih, List.map_cons]

theorem normalItems_eq_map (items : List Value) : normalItems items = items.map Value.normal := by
  induction items with
  | nil => rfl
  | cons v rest ih => rw [normalItems, ih, List.map_cons]

theorem normalMembers_eq_map (members : List (String × Value)) :
    normalMembers members = members.map fun m => (m.1, m.2.normal) := by
  induction members with
  | nil => rfl
  | cons m rest ih => rw [normalMembers, ih, List.map_cons]

theorem allReadBack_iff {keepText : Bool} {items : List Value} :
    allReadBack keepText items ↔ ∀ v ∈ items, v.ReadsBack keepText := by
  induction items with
  | nil => simp [allReadBack]
  | cons v rest ih => rw [allReadBack, ih, List.forall_mem_cons]

theorem membersReadBack_iff {keepText : Bool} {members : List (String × Value)} :
    membersReadBack keepText members ↔
      ∀ m ∈ members, (keepText && m.1 = numeralName) = false ∧ m.2.ReadsBack keepText := by
  induction members with
  | nil => simp [membersReadBack]
  | cons m rest ih => rw [membersReadBack, ih, List.forall_mem_cons, and_assoc]

theorem allOrdered_iff {items : List Value} : allOrdered items ↔ ∀ v ∈ items, v.Ordered := by
  induction items with
  | nil => simp [allOrdered]
  | cons v rest ih => rw [allOrdered, ih, List.forall_mem_cons]

theorem membersOrdered_iff {members : List (String × Value)} :
    membersOrdered members ↔ ∀ m ∈ members, m.2.Ordered := by
  induction members with
  | nil => simp [membersOrdered]
  | cons m rest ih => rw [membersOrdered, ih, List.forall_mem_cons]

theorem deepest_le_iff {items : List Value} {n : Nat} :
    deepest items ≤ n ↔ ∀ v ∈ items, v.depth ≤ n := by
  induction items with
  | nil => simp [deepest]
  | cons v rest ih => rw [deepest, Nat.max_le, ih, List.forall_mem_cons]

theorem deepestMember_le_iff {members : List (String × Value)} {n : Nat} :
    deepestMember members ≤ n ↔ ∀ m ∈ members, m.2.depth ≤ n := by
  induction members with
  | nil => simp [deepestMember]
  | cons m rest ih => rw [deepestMember, Nat.max_le, ih, List.forall_mem_cons]

/-! ## Scalars -/

namespace RoundTripLemmas

variable {keepText : Bool} {style : Style}

theorem scalar_null (rest : Bytes) :
    scalar keepText (ofChars "null".toList ++ rest) = .ok (.null, rest) := by
  have hoctets : ofChars "null".toList = [0x6E, 0x75, 0x6C, 0x6C] := by decide
  rw [hoctets]
  rfl

theorem scalar_bool (b : Bool) (rest : Bytes) :
    scalar keepText (ofChars (boolText b).toList ++ rest) = .ok (.bool b, rest) := by
  cases b with
  | true =>
    have hoctets : ofChars (boolText true).toList = [0x74, 0x72, 0x75, 0x65] := by decide
    rw [hoctets]
    rfl
  | false =>
    have hoctets : ofChars (boolText false).toList = [0x66, 0x61, 0x6C, 0x73, 0x65] := by decide
    rw [hoctets]
    rfl

theorem scalar_text (caution : Caution) (s : String) (rest : Bytes) :
    scalar keepText (ofChars (quoteText caution s) ++ rest) = .ok (.text s, rest) := by
  obtain ⟨body, hbody, hread⟩ := stringBody_quoted (quoted_quoteText caution s)
  rw [hbody]
  change (stringBody (body ++ rest)).map _ = _
  rw [hread]
  rfl

/-- A value without parts is a scalar in its layout, whatever stands behind it. -/
theorem scalar_layout {v : Value} (hplain : v.depth = 0) (h : v.ReadsBack keepText) (n : Nat) :
    ∃ found, scalarValue? keepText found = some v ∧ ∀ rest, EndsNumber rest →
      scalar keepText (ofChars (v.tree.layout style n) ++ rest) = .ok (found, rest) := by
  cases v with
  | null => exact ⟨.null, rfl, fun rest _ => scalar_null rest⟩
  | bool b => exact ⟨.bool b, rfl, fun rest _ => scalar_bool b rest⟩
  | text s => exact ⟨.text s, rfl, fun rest _ => scalar_text style.caution s rest⟩
  | number m =>
    obtain ⟨text, read, htext, hread, hscalar⟩ := h
    refine ⟨.number read, by rw [scalarValue?, hread], fun rest hrest => ?_⟩
    rw [Value.tree, htext, Tree.ofNumeral, Tree.layout, ← ofText_eq]
    exact hscalar rest hrest
  | array items | object members => cases hplain

/-- The octets of a value start like one. -/
theorem value_starts (hstyle : style.IsBlank) {v : Value} (h : v.ReadsBack keepText) (n : Nat) :
    ∃ b bs, ofChars (v.tree.layout style n) = b :: bs ∧ Starts b := by
  cases v with
  | array items =>
    obtain ⟨blanks, _, hoctets⟩ := array_octets hstyle n (treesOf items)
    exact ⟨_, _, hoctets, by decide, by decide, by decide⟩
  | object members =>
    obtain ⟨blanks, _, hoctets⟩ := object_octets hstyle n (membersTree members)
    exact ⟨_, _, hoctets, by decide, by decide, by decide⟩
  | null | bool b | number m | text s =>
    obtain ⟨found, _, hscalar⟩ := @scalar_layout _ style _ rfl h n
    have hread := hscalar [] ends_nil
    rw [List.append_nil] at hread
    exact starts_of_scalar hread

end RoundTripLemmas

open RoundTripLemmas

/-- A value is read from its layout, with the members of its objects in order, if the reader may
open as many containers as stand inside one another. -/
theorem read_value {keepText : Bool} {style : Style} (hstyle : style.IsBlank) (v : Value) :
    ∀ (depth n : Nat) (rest : Bytes), v.ReadsBack keepText → v.depth ≤ depth → EndsNumber rest →
      untypedValue keepText depth (ofChars (v.tree.layout style n) ++ rest) = .ok (v.normal, rest) := by
  induction v using Value.byParts with
  | scalar v hplain =>
    intro depth n rest h _ hrest
    obtain ⟨found, hv, hscalar⟩ := @scalar_layout _ style _ hplain h n
    have hnormal : v.normal = v := by cases v <;> first | rfl | cases hplain
    rw [hnormal]
    exact read_scalar depth (hscalar rest hrest) hv
  | array items ih =>
    intro depth n rest h hdepth _
    obtain ⟨inner, rfl⟩ := Nat.exists_eq_add_one_of_ne_zero (Nat.ne_of_gt (Nat.lt_of_lt_of_le
      (Nat.succ_pos _) hdepth))
    have hinner := deepest_le_iff.1 (Nat.le_of_succ_le_succ hdepth)
    have hback := allReadBack_iff.1 h
    obtain ⟨blanks, hblanks, hoctets⟩ := array_octets hstyle n (treesOf items)
    have hitems := @elements_layout _ _ hstyle (fun bs v => LaidOut style (n + 1) bs v.tree) Value.tree
      items (n + 1) true blanks rest hblanks fun _ _ _ => rfl
    rw [← treesOf_eq_map] at hitems
    rw [Value.tree, hoctets, List.cons_append, List.append_assoc, List.append_assoc,
      List.singleton_append, Value.normal, normalItems_eq_map]
    refine read_list (elements_of_spelled hitems (fun v hv bs mid hbs hmid => ?_)
      (Nat.lt_succ_self _))
    obtain ⟨hstart, hless⟩ := hbs.starts (value_starts hstyle (hback v hv) (n + 1))
    refine ⟨hstart, hless, ?_⟩
    rw [hbs]
    exact ih v hv inner (n + 1) mid (hback v hv) (hinner v hv) hmid
  | object members ih =>
    intro depth n rest h hdepth _
    obtain ⟨inner, rfl⟩ := Nat.exists_eq_add_one_of_ne_zero (Nat.ne_of_gt (Nat.lt_of_lt_of_le
      (Nat.succ_pos _) hdepth))
    have hinner := deepestMember_le_iff.1 (Nat.le_of_succ_le_succ hdepth)
    have hback := membersReadBack_iff.1 h
    obtain ⟨blanks, hblanks, hoctets⟩ := object_octets hstyle n (membersTree members)
    have hmembers := @members_layout _ _ _ hstyle Quoted
      (fun bs v => LaidOut style (n + 1) bs v.tree) id Value.tree members (n + 1) true blanks rest
      hblanks (fun m _ => quoted_quoteText style.caution m.1) fun _ _ _ => rfl
    rw [Value.tree, hoctets, List.cons_append, List.append_assoc, List.append_assoc,
      List.singleton_append, Value.normal, normalMembers_eq_map, membersTree_eq_map]
    refine read_object (objectBody_of_spelled namesRead_quoted hmembers
      (fun m hm gap bs mid hgap hbs hmid => ⟨hbs.length_le, ?_⟩) fun m hm => (hback m hm).1)
    rw [untypedValue_blank hgap, hbs]
    exact ih m hm inner (n + 1) mid (hback m hm).2 (hinner m hm) hmid

/-! ## Members in order -/

mutual

/-- A value whose objects are in order is normal. -/
theorem normal_eq_self : ∀ (v : Value), v.Ordered → v.normal = v
  | .null, _ => rfl
  | .bool _, _ => rfl
  | .number _, _ => rfl
  | .text _, _ => rfl
  | .array items, h => by rw [Value.normal, normalItems_eq_self items h]
  | .object members, h => by
    rw [Value.normal, normalMembers_eq_self members h.2, membersOf_eq_self h.1]

theorem normalItems_eq_self : ∀ (items : List Value), allOrdered items → normalItems items = items
  | [], _ => rfl
  | v :: rest, h => by rw [normalItems, normal_eq_self v h.1, normalItems_eq_self rest h.2]

theorem normalMembers_eq_self : ∀ (members : List (String × Value)), membersOrdered members →
    normalMembers members = members
  | [], _ => rfl
  | (name, v) :: rest, h => by
    rw [normalMembers, normal_eq_self v h.1, normalMembers_eq_self rest h.2]

end

/-! ## Integers -/

mutual

/-- Where numbers do not keep their text, integers are read back. -/
theorem readsBack_of_integral : ∀ (v : Value), v.Integral → v.ReadsBack false
  | .null, _ => trivial
  | .bool _, _ => trivial
  | .number _, ⟨i, hn, hleast, hgreatest⟩ => by
    subst hn
    exact ⟨integerText i, .integer i, rfl, rfl,
      fun rest hrest => scalar_integerText hleast hgreatest hrest⟩
  | .text _, _ => trivial
  | .array items, h => allReadBack_of_integral items h
  | .object members, h => membersReadBack_of_integral members h

theorem allReadBack_of_integral : ∀ (items : List Value), allIntegral items →
    allReadBack false items
  | [], _ => trivial
  | v :: rest, h => ⟨readsBack_of_integral v h.1, allReadBack_of_integral rest h.2⟩

theorem membersReadBack_of_integral : ∀ (members : List (String × Value)),
    membersIntegral members → membersReadBack false members
  | [], _ => trivial
  | (_, v) :: rest, h =>
    ⟨rfl, readsBack_of_integral v h.1, membersReadBack_of_integral rest h.2⟩

end

/-! ## Documents -/

namespace RoundTripLemmas

theorem blank_of_isBlankText {s : String} (h : Codec.isBlankText s = true) :
    Blank (ofChars s.toList) := by
  have hchars : ∀ c ∈ s.toList, Blank (String.utf8EncodeChar c) := by
    intro c hc
    have hblank := List.all_eq_true.1 h c hc
    simp only [Bool.or_eq_true, decide_eq_true_eq] at hblank
    rcases hblank with ((rfl | rfl) | rfl) | rfl <;> decide
  intro b hb
  obtain ⟨c, hc, hb⟩ := List.mem_flatMap.1 hb
  exact hchars c hc b hb

/-- Valid settings lay documents out with blanks only. -/
theorem style_blank {build : Build} {c : Codec} (h : c.validate build = .ok ()) :
    c.style.IsBlank := by
  unfold Codec.validate at h
  split at h
  · cases h
  split at h
  · cases h
  · next hlead =>
    split at h
    · cases h
    · next hindent => exact ⟨blank_of_isBlankText (by simpa using hlead),
        blank_of_isBlankText (by simpa using hindent)⟩

end RoundTripLemmas

/-- A document is read when its root is and only blanks stand behind it. -/
theorem read_document {mode : Mode} {s : Shape} {document rest : Bytes} {r : Reading}
    (h : s.reader mode maxDepth document = .ok (r, rest)) (hrest : Blank rest) :
    s.read mode document = .ok r := by
  have hskip : skipBlanks rest = [] := by
    rw [← List.append_nil rest, TokensLemmas.skipBlanks_blank hrest]
    rfl
  simp only [Shape.read, atEnd, h, bind, Except.bind, hskip]
  rfl

/-- A value is decoded when it is read and only blanks stand around it. -/
theorem decode_of_read {build : Build} {blanks bs rest : Bytes} {v : Value} (c : Codec)
    (hread : untypedValue build.numberText maxDepth bs = .ok (v, rest)) (hblanks : Blank blanks)
    (hrest : Blank rest) : c.decode build .untyped (blanks ++ bs) = .ok (.untyped v) := by
  have hshape : Shape.untyped.read (c.mode build) (blanks ++ bs) = .ok (.whole (.untyped v)) := by
    refine read_document ?_ hrest
    rw [Shape.reader, readUntyped, Codec.mode, untypedValue_blank hblanks, hread]
    rfl
  exact Codec.decode_of_reading hshape rfl

/-- Behind the root of a document that was written there is at most the end of its last line. -/
theorem write_octets (style : Style) (t : Tree) : ∃ rest, Blank rest ∧
    ofText (String.ofList (style.write t)) = ofChars (t.layout style 0) ++ rest := by
  refine ⟨ofChars (if style.pretty then ['\n'] else []), ?_, ?_⟩
  · split <;> decide
  · rw [ofText_eq, String.toList_ofList, write_eq, ofChars_append]

/-- A value that is read back part by part is read back as a whole document, by any codec. -/
theorem decode_write {build : Build} {style : Style} {v : Value} (c : Codec) (hstyle : style.IsBlank)
    (hv : v.ReadsBack build.numberText) (hdepth : v.depth ≤ maxDepth) :
    c.decode build .untyped (ofText (String.ofList (style.write v.tree))) =
      .ok (.untyped v.normal) := by
  obtain ⟨rest, hrest, hdocument⟩ := write_octets style v.tree
  have hread := read_value hstyle v maxDepth 0 rest hv hdepth (ends_of_blank hrest)
  rw [hdocument]
  exact @decode_of_read build [] _ rest _ c hread TokensLemmas.blank_nil hrest

/-- What one codec writes of a value of integers, any codec reads as this value again: neither the
layout nor the escapes nor the watch for unknown fields change anything. -/
theorem decode_encode {c₁ c₂ : Codec} {v : Value} (hc : c₁.validate ⟨false⟩ = .ok ())
    (hnumbers : v.Integral) (hordered : v.Ordered) (hdepth : v.depth ≤ 127) :
    ∃ document, c₁.encode (.untyped v) = .ok document ∧
      c₂.decode ⟨false⟩ .untyped document = .ok (.untyped v) := by
  have hdecode := @decode_write ⟨false⟩ _ v c₂ (style_blank hc) (readsBack_of_integral v hnumbers)
    hdepth
  rw [normal_eq_self v hordered] at hdecode
  exact ⟨_, rfl, hdecode⟩

/-- A list inside an object, with signs of markup, is laid out on several lines and read strictly. -/
theorem decode_encode_nested :
    ∃ document, Codec.encode ⟨true, "\t", "  ", false, false⟩
        (.untyped (.object [("<a>", .array [.number (.integer (-5)), .text "\u2028"])])) =
          .ok document ∧
      Codec.decode ⟨false⟩ ⟨false, "", "", true, false⟩ .untyped document =
        .ok (.untyped (.object [("<a>", .array [.number (.integer (-5)), .text "\u2028"])])) :=
  decode_encode rfl ⟨⟨⟨-5, rfl, by decide, by decide⟩, trivial, trivial⟩, trivial⟩
    ⟨List.pairwise_singleton _ _, ⟨trivial, trivial, trivial⟩, trivial⟩ (by decide)

end FunctionWorker.Json
