import FunctionWorker.Json.Codec
import FunctionWorker.Proofs.Json.Layout
import FunctionWorker.Proofs.Json.Members
import FunctionWorker.Proofs.Json.Tokens

/-!
# The grammar of documents

A document is a tree of lists and objects over its scalars and the names of its members. How scalars
and names are written is left to a lexicon; the grammar says how brackets, braces, commas, colons and
blanks go with them.

Results:
1. `elements_of_spelled`, `members_of_spelled`: what is spelled part by part is read part by part.
2. `read_spelled`: a document is read as its value, if its scalars and names are.
3. `spells_layout`: the layout of a document spells it, if the layouts of its scalars and names do.
-/

namespace FunctionWorker.Json

open Bytes TokensLemmas

variable {σ ν α β : Type}

/-! ## Documents -/

/-- A document over its scalars and the names of its members. An object lists its members as they
come, also those of one name. -/
inductive Document (σ ν : Type) where
  | scalar (a : σ)
  | list (items : List (Document σ ν))
  | object (members : List (ν × Document σ ν))

namespace Document

mutual

/-- What a document comes to, part by part. -/
def fold (leaf : σ → α) (list : List α → α) (object : List (ν × α) → α) : Document σ ν → α
  | .scalar a => leaf a
  | .list items => list (foldItems leaf list object items)
  | .object members => object (foldMembers leaf list object members)

def foldItems (leaf : σ → α) (list : List α → α) (object : List (ν × α) → α) :
    List (Document σ ν) → List α
  | [] => []
  | d :: rest => d.fold leaf list object :: foldItems leaf list object rest

def foldMembers (leaf : σ → α) (list : List α → α) (object : List (ν × α) → α) :
    List (ν × Document σ ν) → List (ν × α)
  | [] => []
  | (n, d) :: rest => (n, d.fold leaf list object) :: foldMembers leaf list object rest

end

/-- How many lists and objects stand inside one another. -/
def depth : Document σ ν → Nat :=
  fold (fun _ => 0) (fun ds => ds.foldr max 0 + 1) fun ms => (ms.map (·.2)).foldr max 0 + 1

/-- The scalars, in the order of the document. -/
def scalars : Document σ ν → List σ :=
  fold (fun a => [a]) List.flatten fun ms => (ms.map (·.2)).flatten

/-- The names of all members, in the order of the document. -/
def names : Document σ ν → List ν :=
  fold (fun _ => []) List.flatten fun ms => ms.flatMap fun m => m.1 :: m.2

/-- The value that the document stands for. Of two members with one name the later counts. -/
def value (leaf : σ → Value) (text : ν → String) : Document σ ν → Value :=
  fold leaf .array fun ms => .object (membersOf (ms.map fun m => (text m.1, m.2)))

/-- The document as it is about to be written. -/
def tree (leaf : σ → Tree) (text : ν → String) : Document σ ν → Tree :=
  fold leaf .array fun ms => .object (ms.map fun m => (text m.1, m.2))

section Fold

variable (leaf : σ → α) (list : List α → α) (object : List (ν × α) → α)

theorem foldItems_eq_map (items : List (Document σ ν)) :
    foldItems leaf list object items = items.map (fold leaf list object) := by
  induction items with
  | nil => rfl
  | cons d rest ih => rw [foldItems, ih, List.map_cons]

theorem foldMembers_eq_map (members : List (ν × Document σ ν)) :
    foldMembers leaf list object members =
      members.map fun m => (m.1, fold leaf list object m.2) := by
  induction members with
  | nil => rfl
  | cons m rest ih => rw [foldMembers, ih, List.map_cons]

theorem fold_list (items : List (Document σ ν)) :
    fold leaf list object (.list items) = list (items.map (fold leaf list object)) := by
  rw [fold, foldItems_eq_map]

theorem fold_object (members : List (ν × Document σ ν)) :
    fold leaf list object (.object members) =
      object (members.map fun m => (m.1, fold leaf list object m.2)) := by
  rw [fold, foldMembers_eq_map]

end Fold

section Value

variable (leaf : σ → Value) (text : ν → String)

theorem value_list (items : List (Document σ ν)) :
    (list items).value leaf text = .array (items.map fun d => d.value leaf text) :=
  fold_list _ _ _ items

theorem value_object (members : List (ν × Document σ ν)) :
    (object members).value leaf text =
      .object (membersOf (members.map fun m => (text m.1, m.2.value leaf text))) := by
  rw [value, fold_object, List.map_map]
  rfl

end Value

section Tree

variable (leaf : σ → Tree) (text : ν → String)

theorem tree_list (items : List (Document σ ν)) :
    (list items).tree leaf text = .array (items.map fun d => d.tree leaf text) :=
  fold_list _ _ _ items

theorem tree_object (members : List (ν × Document σ ν)) :
    (object members).tree leaf text =
      .object (members.map fun m => (text m.1, m.2.tree leaf text)) := by
  rw [tree, fold_object, List.map_map]
  rfl

end Tree

theorem foldr_max_le_iff {ns : List Nat} {n : Nat} : ns.foldr max 0 ≤ n ↔ ∀ m ∈ ns, m ≤ n := by
  induction ns with
  | nil => simp
  | cons m rest ih => rw [List.foldr_cons, Nat.max_le, ih, List.forall_mem_cons]

theorem depth_list_le_iff {items : List (Document σ ν)} {n : Nat} :
    (list items).depth ≤ n ↔ ∃ inner, n = inner + 1 ∧ ∀ d ∈ items, d.depth ≤ inner := by
  rw [depth, fold_list]
  cases n with
  | zero => simp
  | succ inner =>
    rw [Nat.succ_le_succ_iff, foldr_max_le_iff, List.forall_mem_map]
    exact ⟨fun h => ⟨inner, rfl, h⟩, fun ⟨_, heq, h⟩ => Nat.succ.inj heq ▸ h⟩

theorem depth_object_le_iff {members : List (ν × Document σ ν)} {n : Nat} :
    (object members).depth ≤ n ↔ ∃ inner, n = inner + 1 ∧ ∀ m ∈ members, m.2.depth ≤ inner := by
  rw [depth, fold_object]
  cases n with
  | zero => simp
  | succ inner =>
    rw [Nat.succ_le_succ_iff, foldr_max_le_iff, List.map_map, List.forall_mem_map]
    exact ⟨fun h => ⟨inner, rfl, h⟩, fun ⟨_, heq, h⟩ => Nat.succ.inj heq ▸ h⟩

theorem mem_names_list {items : List (Document σ ν)} {n : ν} :
    n ∈ (list items).names ↔ ∃ d ∈ items, n ∈ d.names := by
  rw [names, fold_list]
  simp

theorem mem_names_object {members : List (ν × Document σ ν)} {n : ν} :
    n ∈ (object members).names ↔ ∃ m ∈ members, n = m.1 ∨ n ∈ m.2.names := by
  rw [names, fold_object]
  simp

theorem mem_scalars_list {items : List (Document σ ν)} {a : σ} :
    a ∈ (list items).scalars ↔ ∃ d ∈ items, a ∈ d.scalars := by
  rw [scalars, fold_list]
  simp

theorem mem_scalars_object {members : List (ν × Document σ ν)} {a : σ} :
    a ∈ (object members).scalars ↔ ∃ m ∈ members, a ∈ m.2.scalars := by
  rw [scalars, fold_object]
  simp

mutual

/-- What holds of all scalars and is passed on by lists and objects holds of all documents. -/
theorem byParts {motive : Document σ ν → Prop} (scalar : ∀ a, motive (.scalar a))
    (list : ∀ items, (∀ d ∈ items, motive d) → motive (.list items))
    (object : ∀ members, (∀ m ∈ members, motive m.2) → motive (.object members)) :
    ∀ d, motive d
  | .scalar a => scalar a
  | .list items => list items (byItems scalar list object items)
  | .object members => object members (byMembers scalar list object members)

theorem byItems {motive : Document σ ν → Prop} (scalar : ∀ a, motive (.scalar a))
    (list : ∀ items, (∀ d ∈ items, motive d) → motive (.list items))
    (object : ∀ members, (∀ m ∈ members, motive m.2) → motive (.object members)) :
    ∀ items : List (Document σ ν), ∀ d ∈ items, motive d
  | [] => fun _ hd => nomatch hd
  | d :: rest => List.forall_mem_cons.2
      ⟨byParts scalar list object d, byItems scalar list object rest⟩

theorem byMembers {motive : Document σ ν → Prop} (scalar : ∀ a, motive (.scalar a))
    (list : ∀ items, (∀ d ∈ items, motive d) → motive (.list items))
    (object : ∀ members, (∀ m ∈ members, motive m.2) → motive (.object members)) :
    ∀ members : List (ν × Document σ ν), ∀ m ∈ members, motive m.2
  | [] => fun _ hm => nomatch hm
  | (_, d) :: rest => List.forall_mem_cons.2
      ⟨byParts scalar list object d, byMembers scalar list object rest⟩

end

end Document

/-! ## Spellings -/

/-- The octets up to a closing bracket spell elements, each of them by `part`. -/
inductive Elements (part : Bytes → α → Bytes → Prop) : (first : Bool) → Bytes → List α → Bytes → Prop
  | nil {first : Bool} {blanks rest : Bytes} : Blank blanks →
      Elements part first (blanks ++ closeBracket :: rest) [] rest
  | cons {first : Bool} {gap bs mid rest : Bytes} {a : α} {as : List α} : Gap first gap →
      part bs a mid → Elements part false mid as rest →
      Elements part first (gap ++ bs) (a :: as) rest

/-- The octets up to a closing brace spell members, each of them by `name` and `part`. -/
inductive Members (name : ν → Bytes → Prop) (part : Bytes → α → Bytes → Prop) :
    (first : Bool) → Bytes → List (ν × α) → Bytes → Prop
  | nil {first : Bool} {blanks rest : Bytes} : Blank blanks →
      Members name part first (blanks ++ closeBrace :: rest) [] rest
  | cons {first : Bool} {gap sign before after bs mid rest : Bytes} {n : ν} {a : α}
      {ms : List (ν × α)} : Gap first gap → name n sign → Blank before → Blank after →
      part bs a mid → Members name part false mid ms rest →
      Members name part first (gap ++ (sign ++ (before ++ colon :: (after ++ bs)))) ((n, a) :: ms) rest

/-- How scalars and names are written. -/
structure Lexicon (σ ν : Type) where
  scalar : σ → Bytes → Prop
  name : ν → Bytes → Prop

/-- The first octets, up to the rest, spell the document. -/
inductive Spells (lex : Lexicon σ ν) : Bytes → Document σ ν → Bytes → Prop
  | scalar {sign rest : Bytes} {a : σ} : lex.scalar a sign →
      Spells lex (sign ++ rest) (.scalar a) rest
  | list {body rest : Bytes} {items : List (Document σ ν)} :
      Elements (Spells lex) true body items rest →
      Spells lex (openBracket :: body) (.list items) rest
  | object {body rest : Bytes} {members : List (ν × Document σ ν)} :
      Members lex.name (Spells lex) true body members rest →
      Spells lex (openBrace :: body) (.object members) rest

/-- The octets are the document, with nothing but blanks around it. -/
inductive Lexicon.Writes (lex : Lexicon σ ν) : Bytes → Document σ ν → Prop
  | mk {blanks bs rest : Bytes} {d : Document σ ν} : Blank blanks → Spells lex bs d rest →
      Blank rest → lex.Writes (blanks ++ bs) d

/-- The value that a scalar is. -/
def scalarValue? (keepText : Bool) : Found → Option Value
  | .null => some .null
  | .bool b => some (.bool b)
  | .number n => some (.number (if keepText then n.asNumeral else n))
  | .text s => some (.text s)
  | _ => none

/-- Each sign of a name is read as the text it stands for. -/
def NamesRead (name : ν → Bytes → Prop) (text : ν → String) : Prop :=
  ∀ n sign, name n sign →
    ∃ body, sign = quote :: body ∧ ∀ rest, stringBody (body ++ rest) = .ok (text n, rest)

theorem namesRead_quoted : NamesRead Quoted id := fun _ _ h => stringBody_quoted h

/-- Scalars are read as values, whatever stands behind them, and names as texts. -/
structure Lexicon.Reads (lex : Lexicon σ ν) (keepText : Bool) (leaf : σ → Value) (text : ν → String) :
    Prop where
  scalars {a : σ} {sign : Bytes} : lex.scalar a sign →
    ∃ found, scalarValue? keepText found = some (leaf a) ∧
      ∀ rest, EndsNumber rest → Json.scalar keepText (sign ++ rest) = .ok (found, rest)
  names : NamesRead lex.name text

/-! ## Beginnings and ends -/

/-- What stands here may follow a value: a blank, a comma, a closing bracket or brace, or nothing. -/
def Follows (rest : Bytes) : Prop :=
  ∀ b ∈ rest.head?, isBlankByte b = true ∨ b = comma ∨ b = closeBracket ∨ b = closeBrace

theorem Follows.endsNumber {rest : Bytes} (h : Follows rest) : EndsNumber rest := by
  intro b hb
  have hb := h b hb
  simp only [isBlankByte, Bool.or_eq_true, decide_eq_true_eq] at hb
  rcases hb with (((rfl | rfl) | rfl) | rfl) | rfl | rfl | rfl <;> decide

namespace GrammarLemmas

theorem follows_of_blank {rest : Bytes} (h : Blank rest) : Follows rest :=
  fun b hb => .inl (h b (List.mem_of_mem_head? hb))

/-- What is blank up to a sign that may follow a value. -/
theorem follows_blanks {blanks : Bytes} (hblanks : Blank blanks) {b : UInt8} {rest : Bytes}
    (hb : b = comma ∨ b = closeBracket ∨ b = closeBrace) : Follows (blanks ++ b :: rest) := by
  cases blanks with
  | nil =>
    intro c hc
    cases hc
    exact .inr hb
  | cons c blanks =>
    intro d hd
    cases hd
    exact .inl (hblanks c List.mem_cons_self)

theorem follows_gap {gap : Bytes} (h : Gap false gap) (bs : Bytes) : Follows (gap ++ bs) := by
  cases h with
  | later hbefore _ =>
    rw [List.append_assoc]
    exact follows_blanks hbefore (.inl rfl)

variable {part : Bytes → α → Bytes → Prop} {name : ν → Bytes → Prop} {bs rest : Bytes}

theorem follows_elements {as : List α} (h : Elements part false bs as rest) : Follows bs := by
  cases h with
  | nil hblanks => exact follows_blanks hblanks (.inr (.inl rfl))
  | cons hgap _ _ => exact follows_gap hgap _

theorem follows_members {ms : List (ν × α)} (h : Members name part false bs ms rest) :
    Follows bs := by
  cases h with
  | nil hblanks => exact follows_blanks hblanks (.inr (.inr rfl))
  | cons hgap _ _ _ _ _ => exact follows_gap hgap _

theorem ends_of_blank {rest : Bytes} (h : Blank rest) : EndsNumber rest :=
  (follows_of_blank h).endsNumber

theorem ends_nil : EndsNumber [] := ends_of_blank blank_nil

/-- Each element takes an octet. -/
theorem length_elements {first : Bool} {as : List α} (h : Elements part first bs as rest)
    (hpart : ∀ a ∈ as, ∀ bs mid, part bs a mid → mid.length < bs.length) :
    as.length + rest.length < bs.length := by
  induction h with
  | nil =>
    simp only [List.length_nil, List.length_append, List.length_cons]
    omega
  | cons _ ha _ ih =>
    have hfirst := hpart _ List.mem_cons_self _ _ ha
    have hmore := ih fun a hmem => hpart a (List.mem_cons_of_mem _ hmem)
    simp only [List.length_cons, List.length_append]
    omega

/-- Each member takes an octet, for its colon. -/
theorem length_members {first : Bool} {ms : List (ν × α)} (h : Members name part first bs ms rest)
    (hpart : ∀ m ∈ ms, ∀ bs mid, part bs m.2 mid → mid.length ≤ bs.length) :
    ms.length + rest.length < bs.length := by
  induction h with
  | nil =>
    simp only [List.length_nil, List.length_append, List.length_cons]
    omega
  | cons _ _ _ _ ha _ ih =>
    have hfirst := hpart _ List.mem_cons_self _ _ ha
    have hmore := ih fun m hmem => hpart m (List.mem_cons_of_mem _ hmem)
    simp only [List.length_cons, List.length_append]
    omega

/-- A document takes an octet. -/
theorem length_spells {lex : Lexicon σ ν} (hlex : ∀ {a sign}, lex.scalar a sign → sign ≠ [])
    (d : Document σ ν) : ∀ {bs rest}, Spells lex bs d rest → rest.length < bs.length := by
  induction d using Document.byParts with
  | scalar a =>
    rintro _ rest ⟨hsign⟩
    have hpos := List.length_pos_of_ne_nil (hlex hsign)
    rw [List.length_append]
    omega
  | list items ih =>
    intro _ rest h
    cases h with
    | list hitems =>
      have hlength := length_elements hitems fun d hd _ _ h => ih d hd h
      simp only [List.length_cons]
      omega
  | object members ih =>
    intro _ rest h
    cases h with
    | object hmembers =>
      have hlength := length_members hmembers fun m hm _ _ h => Nat.le_of_lt (ih m hm h)
      simp only [List.length_cons]
      omega

/-! ## Reading -/

section Reading

variable {keepText : Bool}

/-- What starts with a scalar or a container starts with an octet that cannot be mistaken. -/
theorem starts_of_scalar {bs : Bytes} {r : Found × Bytes} (h : scalar keepText bs = .ok r) :
    ∃ b rest, bs = b :: rest ∧ Starts b := by
  cases bs with
  | nil => cases h
  | cons b rest =>
    refine ⟨b, rest, rfl, ?_, ?_, ?_⟩
    · cases hb : isBlankByte b with
      | false => rfl
      | true =>
        simp only [isBlankByte, Bool.or_eq_true, decide_eq_true_eq] at hb
        rcases hb with ((rfl | rfl) | rfl) | rfl <;> cases h
    · rintro rfl
      cases h
    · rintro rfl
      cases h

theorem untypedValue_eq (keepText : Bool) (depth : Nat) :
    ∃ part, untypedValue keepText depth = untypedWith keepText part := by
  cases depth with
  | zero => exact ⟨none, rfl⟩
  | succ depth => exact ⟨some (untypedValue keepText depth), rfl⟩

/-- Blanks in front of a value change nothing. -/
theorem untypedValue_blank {blanks : Bytes} (h : Blank blanks) (depth : Nat) (bs : Bytes) :
    untypedValue keepText depth (blanks ++ bs) = untypedValue keepText depth bs := by
  obtain ⟨part, hpart⟩ := untypedValue_eq keepText depth
  rw [hpart, untypedWith, skipBlanks_blank h]
  rfl

theorem read_scalar {bs rest : Bytes} {found : Found} {v : Value} (depth : Nat)
    (h : scalar keepText bs = .ok (found, rest)) (hv : scalarValue? keepText found = some v) :
    untypedValue keepText depth bs = .ok (v, rest) := by
  obtain ⟨part, hpart⟩ := untypedValue_eq keepText depth
  obtain ⟨b, tail, rfl, hb⟩ := starts_of_scalar h
  rw [hpart, untypedWith, skipBlanks_start hb.notBlank, h]
  cases found with
  | null | bool b | number n | text s =>
    cases hv
    rfl
  | sequence | map | plainChoice => cases hv

/-- A container is closed behind what was read of it. -/
theorem closing_ok {α : Type} {close : Bytes → Read Bytes} {body : Read (α × Bytes)} {a : α}
    {inside rest : Bytes} (hbody : body = .ok (a, inside)) (hclose : close inside = .ok rest) :
    closing close body = .ok (a, rest) := by
  unfold closing
  rw [hbody]
  simp only [hclose]
  rfl

theorem closeList_bracket (rest : Bytes) : closeList (closeBracket :: rest) = .ok rest := by
  rw [closeList, skipBlanks_start (by decide)]
  rfl

theorem closeObject_brace (rest : Bytes) : closeObject (closeBrace :: rest) = .ok rest := by
  rw [closeObject, skipBlanks_start (by decide)]
  rfl

/-- A list is read when its elements are. -/
theorem read_list {depth : Nat} {body rest : Bytes} {values : List Value}
    (h : elements (untypedValue keepText depth) (body.length + 1) true body =
      .ok (values, closeBracket :: rest)) :
    untypedValue keepText (depth + 1) (openBracket :: body) = .ok (.array values, rest) := by
  rw [untypedValue, untypedWith, skipBlanks_start (by decide)]
  change closing closeList (elements (untypedValue keepText depth) (body.length + 1) true body) >>= _ = _
  rw [closing_ok h (closeList_bracket rest)]
  rfl

/-- An object is read when what it holds is. -/
theorem read_object {depth : Nat} {body rest : Bytes} {v : Value}
    (h : objectBody keepText (untypedValue keepText depth) body = .ok (v, closeBrace :: rest)) :
    untypedValue keepText (depth + 1) (openBrace :: body) = .ok (v, rest) := by
  rw [untypedValue, untypedWith, skipBlanks_start (by decide)]
  exact closing_ok h (closeObject_brace rest)

end Reading

end GrammarLemmas

open GrammarLemmas

/-- Elements are read one after the other, if each of them is read where it is spelled. The reader
makes a turn for each octet at most. -/
theorem elements_of_spelled {part : Bytes → α → Bytes → Prop} {item : Bytes → Read (β × Bytes)}
    {f : α → β} {first : Bool} {bs rest : Bytes} {as : List α} {fuel : Nat}
    (h : Elements part first bs as rest)
    (hitem : ∀ a ∈ as, ∀ bs mid, part bs a mid → EndsNumber mid →
      (∃ b tail, bs = b :: tail ∧ Starts b) ∧ mid.length < bs.length ∧ item bs = .ok (f a, mid))
    (hfuel : bs.length < fuel) :
    elements item fuel first bs = .ok (as.map f, closeBracket :: rest) := by
  induction h generalizing fuel with
  | nil hblanks =>
    obtain ⟨turns, rfl⟩ := Nat.exists_eq_add_one_of_ne_zero (Nat.ne_of_gt (Nat.zero_lt_of_lt hfuel))
    simp only [elements, nextElement_end hblanks]
    rfl
  | cons hgap ha hmore ih =>
    obtain ⟨turns, rfl⟩ := Nat.exists_eq_add_one_of_ne_zero (Nat.ne_of_gt (Nat.zero_lt_of_lt hfuel))
    obtain ⟨⟨b, tail, rfl, hb⟩, hless, hread⟩ :=
      hitem _ List.mem_cons_self _ _ ha (follows_elements hmore).endsNumber
    rw [List.length_append] at hfuel
    have hrest := @ih turns (fun a hmem => hitem a (List.mem_cons_of_mem _ hmem)) (by omega)
    simp only [elements, nextElement_gap hgap hb, bind, Except.bind, if_true, hread, hrest]
    rfl

section Members

variable {name : ν → Bytes → Prop} {part : Bytes → α → Bytes → Prop} {text : ν → String} {first : Bool}
  {bs rest : Bytes} {ms : List (ν × α)}

/-- A member is read up to what belongs to its name. -/
theorem name_of_spelled (hname : NamesRead name text) {n : ν} {sign before : Bytes}
    (hsign : name n sign) (hbefore : Blank before) (after : Bytes) :
    ∃ body, sign = quote :: body ∧
      textName (quote :: (body ++ (before ++ colon :: after))) =
        .ok (text n, before ++ colon :: after) ∧
      readColon (before ++ colon :: after) = .ok after := by
  obtain ⟨body, hbody, hread⟩ := hname n sign hsign
  refine ⟨body, hbody, hread _, ?_⟩
  simp [readColon, skipBlanks_token hbefore (show isBlankByte colon = false by decide)]

/-- Members are read one after the other, if their names and what belongs to them are. -/
theorem members_of_spelled {item : Bytes → Read (β × Bytes)} {f : α → β} {fuel : Nat}
    (hname : NamesRead name text) (h : Members name part first bs ms rest)
    (hitem : ∀ m ∈ ms, ∀ blanks bs mid, Blank blanks → part bs m.2 mid → EndsNumber mid →
      mid.length ≤ bs.length ∧ item (blanks ++ bs) = .ok (f m.2, mid))
    (hfuel : bs.length < fuel) :
    members textName (fun _ => item) fuel first bs =
      .ok (ms.map fun m => (text m.1, f m.2), closeBrace :: rest) := by
  induction h generalizing fuel with
  | nil hblanks =>
    obtain ⟨turns, rfl⟩ := Nat.exists_eq_add_one_of_ne_zero (Nat.ne_of_gt (Nat.zero_lt_of_lt hfuel))
    simp only [members, nextMember_end hblanks]
    rfl
  | @cons _ gap sign before after bs mid rest n a ms hgap hsign hbefore hafter ha hmore ih =>
    obtain ⟨turns, rfl⟩ := Nat.exists_eq_add_one_of_ne_zero (Nat.ne_of_gt (Nat.zero_lt_of_lt hfuel))
    obtain ⟨body, rfl, htext, hcolon⟩ := name_of_spelled hname hsign hbefore (after ++ bs)
    obtain ⟨hless, hread⟩ := hitem _ List.mem_cons_self after bs mid hafter ha (follows_members hmore).endsNumber
    simp only [List.length_append, List.length_cons] at hfuel
    have hrest := @ih turns (fun m hmem => hitem m (List.mem_cons_of_mem _ hmem)) (by omega)
    simp only [members, List.cons_append, nextMember_gap hgap, bind, Except.bind, if_true, htext,
      hcolon, hread, hrest]
    rfl

/-- An object is read from its members, if its first name announces no number. -/
theorem objectBody_of_spelled {keepText : Bool} {item : Bytes → Read (Value × Bytes)} {f : α → Value}
    (hname : NamesRead name text) (h : Members name part true bs ms rest)
    (hitem : ∀ m ∈ ms, ∀ blanks bs mid, Blank blanks → part bs m.2 mid → EndsNumber mid →
      mid.length ≤ bs.length ∧ item (blanks ++ bs) = .ok (f m.2, mid))
    (hnumeral : ∀ m ∈ ms, (keepText && text m.1 = numeralName) = false) :
    objectBody keepText item bs =
      .ok (.object (membersOf (ms.map fun m => (text m.1, f m.2))), closeBrace :: rest) := by
  cases h with
  | nil hblanks =>
    simp only [objectBody, nextMember_end hblanks]
    rfl
  | @cons _ gap sign before after bs mid _ n a ms hgap hsign hbefore hafter ha hmore =>
    -- The first member is read apart from the others: its name could announce a number.
    obtain ⟨hfirst, _⟩ := List.forall_mem_cons.1 hnumeral
    obtain ⟨body, rfl, htext, hcolon⟩ := name_of_spelled hname hsign hbefore (after ++ bs)
    obtain ⟨_, hread⟩ := hitem _ List.mem_cons_self after bs mid hafter ha (follows_members hmore).endsNumber
    have hrest := members_of_spelled hname hmore
      (fun m hmem => hitem m (List.mem_cons_of_mem _ hmem)) (Nat.lt_succ_self mid.length)
    simp only [objectBody, List.cons_append, nextMember_gap hgap, bind, Except.bind, if_true, htext,
      hcolon, hfirst, Bool.false_eq_true, if_false, hread, hrest]
    rfl

end Members

section Reads

variable {lex : Lexicon σ ν} {keepText : Bool} {leaf : σ → Value} {text : ν → String}

theorem Lexicon.Reads.starts (hlex : lex.Reads keepText leaf text) {bs rest : Bytes}
    {d : Document σ ν} (h : Spells lex bs d rest) : ∃ b tail, bs = b :: tail ∧ Starts b := by
  cases h with
  | scalar hsign =>
    obtain ⟨found, _, hscalar⟩ := hlex.scalars hsign
    have hread := hscalar [] ends_nil
    rw [List.append_nil] at hread
    obtain ⟨b, tail, rfl, hb⟩ := starts_of_scalar hread
    exact ⟨b, _, rfl, hb⟩
  | list hitems => exact ⟨_, _, rfl, by decide, by decide, by decide⟩
  | object hmembers => exact ⟨_, _, rfl, by decide, by decide, by decide⟩

theorem Lexicon.Reads.length (hlex : lex.Reads keepText leaf text) {bs rest : Bytes}
    {d : Document σ ν} (h : Spells lex bs d rest) : rest.length < bs.length := by
  refine length_spells (fun {a sign} hsign => ?_) d h
  obtain ⟨found, _, hscalar⟩ := hlex.scalars hsign
  rintro rfl
  cases hscalar [] ends_nil

/-- A document is read as its value where it is spelled, if the reader may open as many containers as
stand inside one another and no member announces a number. -/
theorem read_spelled (hlex : lex.Reads keepText leaf text) (d : Document σ ν) :
    ∀ {bs rest : Bytes} {depth : Nat}, Spells lex bs d rest → d.depth ≤ depth →
      (∀ n ∈ d.names, (keepText && text n = numeralName) = false) → EndsNumber rest →
      untypedValue keepText depth bs = .ok (d.value leaf text, rest) := by
  induction d using Document.byParts with
  | scalar a =>
    rintro _ rest depth ⟨hsign⟩ _ _ hrest
    obtain ⟨found, hfound, hscalar⟩ := hlex.scalars hsign
    exact read_scalar depth (hscalar rest hrest) hfound
  | list items ih =>
    intro bs rest depth h hdepth hnames _
    obtain ⟨inner, rfl, hinner⟩ := Document.depth_list_le_iff.1 hdepth
    cases h with
    | list hitems =>
      rw [Document.value_list]
      refine read_list (elements_of_spelled hitems
        (fun d hd bs mid h hmid => ⟨hlex.starts h, hlex.length h, ?_⟩) (Nat.lt_succ_self _))
      exact ih d hd h (hinner d hd)
        (fun n hn => hnames n (Document.mem_names_list.2 ⟨d, hd, hn⟩)) hmid
  | object members ih =>
    intro bs rest depth h hdepth hnames _
    obtain ⟨inner, rfl, hinner⟩ := Document.depth_object_le_iff.1 hdepth
    cases h with
    | object hmembers =>
      rw [Document.value_object]
      refine read_object (objectBody_of_spelled hlex.names hmembers
        (fun m hm blanks bs mid hblanks h hmid => ⟨Nat.le_of_lt (hlex.length h), ?_⟩)
        fun m hm => hnames _ (Document.mem_names_object.2 ⟨m, hm, .inl rfl⟩))
      rw [untypedValue_blank hblanks]
      exact ih m hm h (hinner m hm)
        (fun n hn => hnames n (Document.mem_names_object.2 ⟨m, hm, .inr hn⟩)) hmid

end Reads

/-! ## Writing -/

section Writing

variable {style : Style}

namespace GrammarLemmas

theorem octets_openBracket : String.utf8EncodeChar '[' = [openBracket] := by decide
theorem octets_closeBracket : String.utf8EncodeChar ']' = [closeBracket] := by decide
theorem octets_openBrace : String.utf8EncodeChar '\x7b' = [openBrace] := by decide
theorem octets_closeBrace : String.utf8EncodeChar '\x7d' = [closeBrace] := by decide

/-- The octets of a list: its elements between the brackets, and blanks in front of the closing
one. -/
theorem array_octets (hstyle : style.IsBlank) (n : Nat) (items : List Tree) :
    ∃ blanks, Blank blanks ∧ ofChars ((Tree.array items).layout style n) =
      openBracket :: (ofChars (elementsLayout style (n + 1) true items) ++
        (blanks ++ [closeBracket])) := by
  cases items with
  | nil => exact ⟨[], blank_nil, by
      simp [Tree.layout, elementsLayout, octets_openBracket, octets_closeBracket]⟩
  | cons v rest => exact ⟨_, closing_blank hstyle n true, by
      simp [Tree.layout, octets_openBracket, octets_closeBracket]⟩

theorem object_octets (hstyle : style.IsBlank) (n : Nat) (members : List (String × Tree)) :
    ∃ blanks, Blank blanks ∧ ofChars ((Tree.object members).layout style n) =
      openBrace :: (ofChars (membersLayout style (n + 1) true members) ++
        (blanks ++ [closeBrace])) := by
  cases members with
  | nil => exact ⟨[], blank_nil, by
      simp [Tree.layout, membersLayout, octets_openBrace, octets_closeBrace]⟩
  | cons m rest => exact ⟨_, closing_blank hstyle n true, by
      obtain ⟨name, v⟩ := m
      simp [Tree.layout, octets_openBrace, octets_closeBrace]⟩

/-- Behind a name comes the colon, and a blank if the document has several lines. -/
theorem colon_octets (style : Style) : ∃ blanks, Blank blanks ∧
    ofChars style.colon = colon :: blanks := by
  have hcolon : String.utf8EncodeChar ':' = [colon] := by decide
  have hspace : String.utf8EncodeChar ' ' = [0x20] := by decide
  cases hpretty : style.pretty with
  | true => exact ⟨[0x20], by decide, by simp [Style.colon, hpretty, hcolon, hspace]⟩
  | false => exact ⟨[], blank_nil, by simp [Style.colon, hpretty, hcolon]⟩

end GrammarLemmas

/-- The octets are the layout of a tree, up to the rest. -/
def LaidOut (style : Style) (n : Nat) (bs : Bytes) (t : Tree) (rest : Bytes) : Prop :=
  bs = ofChars (t.layout style n) ++ rest

section LaidOut

variable {n : Nat} {bs rest : Bytes} {t : Tree}

theorem LaidOut.length_le (h : LaidOut style n bs t rest) : rest.length ≤ bs.length := by
  rw [h, List.length_append]
  exact Nat.le_add_left _ _

theorem LaidOut.starts (h : LaidOut style n bs t rest)
    (hstart : ∃ b tail, ofChars (t.layout style n) = b :: tail ∧ Starts b) :
    (∃ b tail, bs = b :: tail ∧ Starts b) ∧ rest.length < bs.length := by
  obtain ⟨b, tail, hoctets, hb⟩ := hstart
  rw [LaidOut, hoctets, List.cons_append] at h
  subst h
  refine ⟨⟨b, _, rfl, hb⟩, ?_⟩
  simp only [List.length_cons, List.length_append]
  omega

end LaidOut

theorem elements_layout (hstyle : style.IsBlank) {part : Bytes → α → Bytes → Prop} {f : α → Tree}
    {as : List α} {n : Nat} (first : Bool) {blanks : Bytes} (rest : Bytes) (hblanks : Blank blanks)
    (h : ∀ a ∈ as, ∀ rest, part (ofChars ((f a).layout style n) ++ rest) a rest) :
    Elements part first (ofChars (elementsLayout style n first (as.map f)) ++
      (blanks ++ closeBracket :: rest)) as rest := by
  induction as generalizing first with
  | nil => exact .nil hblanks
  | cons a as ih =>
    obtain ⟨hfirst, hmore⟩ := List.forall_mem_cons.1 h
    rw [List.map_cons, elementsLayout, ofChars_append, ofChars_append, List.append_assoc,
      List.append_assoc]
    exact .cons (gap_before hstyle n first) (hfirst _) (ih false hmore)

theorem members_layout (hstyle : style.IsBlank) {name : ν → Bytes → Prop}
    {part : Bytes → α → Bytes → Prop} {text : ν → String} {f : α → Tree} {ms : List (ν × α)} {n : Nat}
    (first : Bool) {blanks : Bytes} (rest : Bytes) (hblanks : Blank blanks)
    (hname : ∀ m ∈ ms, name m.1 (ofChars (quoteText style.caution (text m.1))))
    (h : ∀ m ∈ ms, ∀ rest, part (ofChars ((f m.2).layout style n) ++ rest) m.2 rest) :
    Members name part first
      (ofChars (membersLayout style n first (ms.map fun m => (text m.1, f m.2))) ++
        (blanks ++ closeBrace :: rest)) ms rest := by
  induction ms generalizing first with
  | nil => exact .nil hblanks
  | cons m ms ih =>
    obtain ⟨hfirst, hmore⟩ := List.forall_mem_cons.1 h
    obtain ⟨hsign, hsigns⟩ := List.forall_mem_cons.1 hname
    obtain ⟨space, hspace, hcolon⟩ := colon_octets style
    simp only [List.map_cons, membersLayout, ofChars_append, List.append_assoc, hcolon,
      List.cons_append]
    exact .cons (gap_before hstyle n first) hsign blank_nil hspace (hfirst _) (ih false hsigns hmore)

/-- The layout of a document spells it, if the layouts of its scalars and names do. -/
theorem spells_layout (hstyle : style.IsBlank) {lex : Lexicon σ ν} {leaf : σ → Tree}
    {text : ν → String} (d : Document σ ν) :
    ∀ (n : Nat) (rest : Bytes),
      (∀ a ∈ d.scalars, ∀ n, lex.scalar a (ofChars ((leaf a).layout style n))) →
      (∀ m ∈ d.names, lex.name m (ofChars (quoteText style.caution (text m)))) →
      Spells lex (ofChars ((d.tree leaf text).layout style n) ++ rest) d rest := by
  induction d using Document.byParts with
  | scalar a =>
    intro n rest hscalars _
    exact .scalar (hscalars a List.mem_cons_self n)
  | list items ih =>
    intro n rest hscalars hnames
    obtain ⟨blanks, hblanks, hoctets⟩ := array_octets hstyle n (items.map fun d => d.tree leaf text)
    rw [Document.tree_list, hoctets, List.cons_append, List.append_assoc, List.append_assoc]
    refine .list (elements_layout hstyle true rest hblanks fun d hd rest => ih d hd _ rest ?_ ?_)
    · exact fun a ha => hscalars a (Document.mem_scalars_list.2 ⟨d, hd, ha⟩)
    · exact fun m hm => hnames m (Document.mem_names_list.2 ⟨d, hd, hm⟩)
  | object members ih =>
    intro n rest hscalars hnames
    obtain ⟨blanks, hblanks, hoctets⟩ := object_octets hstyle n
      (members.map fun m => (text m.1, m.2.tree leaf text))
    rw [Document.tree_object, hoctets, List.cons_append, List.append_assoc, List.append_assoc]
    refine .object (members_layout hstyle true rest hblanks ?_ fun m hm rest => ih m hm _ rest ?_ ?_)
    · exact fun m hm => hnames _ (Document.mem_names_object.2 ⟨m, hm, .inl rfl⟩)
    · exact fun a ha => hscalars a (Document.mem_scalars_object.2 ⟨m, hm, ha⟩)
    · exact fun k hk => hnames k (Document.mem_names_object.2 ⟨m, hm, .inr hk⟩)

end Writing

end FunctionWorker.Json
