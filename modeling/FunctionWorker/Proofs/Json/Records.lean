import Mathlib.Data.List.Forall2
import FunctionWorker.Proofs.Json.RoundTrip

/-!
# Records that are read back

What has a declared type is read back from its layout part by part: a list by the reader of its
elements, a record by the readers of its fields. The lemmas here say what a reader makes of a tree;
they hold in every layout, and whatever stands behind the tree.

Results:
1. `text_reads`, `int_reads`: scalars.
2. `option_reads`, `list_reads`: what is there, and lists.
3. `record_reads`: a record from an object that lists its fields, in any order.
4. `read_write`: a whole document.
-/

namespace FunctionWorker.Json

open Bytes TokensLemmas GrammarLemmas RoundTripLemmas

/-! ## Definitions -/

/-- In every layout, and behind blanks, the reader reads the tree as the datum and has nothing to
ignore. -/
def Reader.Reads (reader : Reader) (depth : Nat) (t : Tree) (d : Datum) : Prop :=
  ∀ style : Style, style.IsBlank → ∀ (n : Nat) (blanks rest : Bytes), Blank blanks →
    EndsNumber rest →
      reader depth (blanks ++ (ofChars (t.layout style n) ++ rest)) = .ok (.whole d, rest)

/-- In every layout the tree starts like a value, but not like the word for nothing. -/
def Tree.Begins (t : Tree) : Prop :=
  ∀ style : Style, style.IsBlank → ∀ n : Nat,
    ∃ b bs, ofChars (t.layout style n) = b :: bs ∧ Starts b ∧ b ≠ 0x6E

/-- The member has the name of a field, and the reader of the field reads it. -/
def FieldReads (mode : Mode) (fields : List (String × Absence × Shape)) (depth : Nat)
    (m : String × Tree) (d : String × Datum) : Prop :=
  d.1 = m.1 ∧ ∃ f, fields.find? (fun f => f.1 = m.1) = some f ∧
    (f.2.2.reader mode).Reads depth m.2 d.2

/-! ## Scalars -/

section Scalars

variable {mode : Mode} {keepText : Bool} {depth : Nat} {t : Tree} {d : Datum}

/-- A scalar is read where its layout is found to be something that is accepted. -/
theorem readScalar_reads {accept : Found → Except Fault Datum} {found : Found}
    (hscalar : ∀ (style : Style) (n : Nat) (rest : Bytes), EndsNumber rest →
      scalar keepText (ofChars (t.layout style n) ++ rest) = .ok (found, rest))
    (haccept : accept found = .ok d) : (readScalar keepText accept).Reads depth t d := by
  intro style _ n blanks rest hblanks hrest
  have hread := hscalar style n rest hrest
  obtain ⟨b, tail, hstart, hb⟩ := starts_of_scalar hread
  rw [readScalar, skipBlanks_blank hblanks, hstart, skipBlanks_start hb.notBlank, ← hstart, hread]
  simp only [bind, Except.bind, haccept]
  rfl

theorem text_reads (s : String) : (Shape.text.reader mode).Reads depth (.text s) (.text s) := by
  rw [Shape.reader]
  exact readScalar_reads (fun style _ rest _ => scalar_text style.caution s rest) rfl

/-- An integer of the range is read from its text. -/
theorem int_reads {range : IntRange} {i : Int} (hleast : range.least ≤ i) (hmost : i ≤ range.most)
    (hrange : leastInteger ≤ range.least ∧ range.most ≤ greatestInteger) :
    ((Shape.int range).reader mode).Reads depth (.atom (integerText i)) (.int i) := by
  have haccept : acceptInt range (.number (.integer i)) = .ok (.int i) := by
    simp [acceptInt, hleast, hmost]
  rw [Shape.reader]
  refine readScalar_reads (fun style n rest hrest => ?_) haccept
  rw [Tree.layout, ← ofText_eq]
  exact scalar_integerText (Int.le_trans hrange.1 hleast) (Int.le_trans hmost hrange.2) hrest

end Scalars

/-! ## Containers -/

theorem array_begins (items : List Tree) : (Tree.array items).Begins := by
  intro style hstyle n
  obtain ⟨blanks, _, hoctets⟩ := array_octets hstyle n items
  exact ⟨_, _, hoctets, ⟨by decide, by decide, by decide⟩, by decide⟩

theorem object_begins (members : List (String × Tree)) : (Tree.object members).Begins := by
  intro style hstyle n
  obtain ⟨blanks, _, hoctets⟩ := object_octets hstyle n members
  exact ⟨_, _, hoctets, ⟨by decide, by decide, by decide⟩, by decide⟩

theorem option_reads {mode : Mode} {s : Shape} {depth : Nat} {t : Tree} {d : Datum}
    (h : (s.reader mode).Reads depth t d) (hbegins : t.Begins) :
    ((Shape.option s).reader mode).Reads depth t (.present d) := by
  intro style hstyle n blanks rest hblanks hrest
  have hread := h style hstyle n [] rest blank_nil hrest
  obtain ⟨b, bs, hstart, hb, hnull⟩ := hbegins style hstyle n
  rw [List.nil_append, hstart, List.cons_append] at hread
  rw [hstart, List.cons_append, Shape.reader, readOption, skipBlanks_token hblanks hb.notBlank]
  split
  · next heq => exact absurd (List.cons.inj heq).1 hnull
  · next heq =>
    rw [hread]
    rfl

section Lists

variable {items : List Tree} {ds : List Datum}

/-- What is read of each tree, next to the tree. -/
theorem exists_pairs {R : α → β → Prop} {as : List α} {bs : List β} (h : List.Forall₂ R as bs) :
    ∃ pairs : List (α × β), as = pairs.map (·.1) ∧ bs = pairs.map (·.2) ∧
      ∀ pair ∈ pairs, R pair.1 pair.2 := by
  induction h with
  | nil => exact ⟨[], rfl, rfl, fun _ hp => nomatch hp⟩
  | @cons a b _ _ hab _ ih =>
    obtain ⟨pairs, rfl, rfl, hpairs⟩ := ih
    exact ⟨(a, b) :: pairs, rfl, rfl, List.forall_mem_cons.2 ⟨hab, hpairs⟩⟩

theorem datum_whole (ds : List Datum) : (ds.map Reading.whole).map (·.datum) = ds := by
  rw [List.map_map]
  exact List.map_id ds

theorem ignoredFrom_whole (index : Nat) (ds : List Datum) :
    ignoredFrom index (ds.map .whole) = [] := by
  induction ds generalizing index with
  | nil => rfl
  | cons d rest ih =>
    rw [List.map_cons, ignoredFrom, ih]
    rfl

/-- A list is read when its elements are. -/
theorem list_reads {mode : Mode} {s : Shape} {depth : Nat}
    (h : List.Forall₂ ((s.reader mode).Reads depth) items ds) (hbegins : ∀ t ∈ items, t.Begins) :
    ((Shape.list s).reader mode).Reads (depth + 1) (.array items) (.list ds) := by
  intro style hstyle n blanks rest hblanks _
  obtain ⟨pairs, rfl, rfl, hpairs⟩ := exists_pairs h
  obtain ⟨close, hclose, hoctets⟩ := array_octets hstyle n (pairs.map (·.1))
  have hbracket : isBlankByte openBracket = false := by decide
  have hspelled := @elements_layout _ _ hstyle (fun bs pair => LaidOut style (n + 1) bs pair.1)
    Prod.fst pairs (n + 1) true close rest hclose fun _ _ _ => rfl
  have helements := @elements_of_spelled _ _ _ ((s.reader mode) depth) (fun pair => .whole pair.2) _ _
    _ _ _ hspelled (fun pair hpair bs mid hbs hmid => by
      obtain ⟨b, tail, hoctets, hb, _⟩ := hbegins _ (List.mem_map_of_mem hpair) style hstyle (n + 1)
      obtain ⟨hstart, hless⟩ := hbs.starts ⟨b, tail, hoctets, hb⟩
      refine ⟨hstart, hless, ?_⟩
      rw [hbs]
      exact hpairs pair hpair style hstyle (n + 1) [] mid blank_nil hmid) (Nat.lt_succ_self _)
  have hdatum : (pairs.map fun pair => Reading.whole pair.2) = (pairs.map (·.2)).map .whole := by
    rw [List.map_map]
    rfl
  rw [hdatum] at helements
  simp only [hoctets, List.cons_append, List.append_assoc, List.nil_append]
  rw [Shape.reader, readList, startsWith, skipBlanks_token hblanks hbracket, openContainer,
    skipBlanks_token hblanks hbracket]
  simp only [List.head?_cons, decide_true, if_true, bind, Except.bind, List.drop_succ_cons,
    List.drop_zero, closing_ok helements (closeList_bracket rest), ignoredFrom_whole, datum_whole]
  rfl

end Lists

/-! ## Records -/

section Records

variable {mode : Mode} {fields : List (String × Absence × Shape)} {depth : Nat}
  {ms : List (String × Tree)} {ds : List (String × Datum)}

theorem fieldReaders_eq_map (mode : Mode) (fields : List (String × Absence × Shape)) :
    fieldReaders mode fields = fields.map fun f => ⟨f.1, f.2.1, f.2.2.reader mode⟩ := by
  induction fields with
  | nil => rfl
  | cons f rest ih => rw [fieldReaders, ih, List.map_cons]

theorem find?_fieldReaders (name : String) :
    (fieldReaders mode fields).find? (fun f => f.name = name) =
      (fields.find? fun f => f.1 = name).map fun f => ⟨f.1, f.2.1, f.2.2.reader mode⟩ := by
  rw [fieldReaders_eq_map, List.find?_map]
  rfl

theorem member?_eq_none {α : Type} {name : String} {members : List (String × α)}
    (h : name ∉ members.map (·.1)) : member? name members = none := by
  rw [member?, Option.map_eq_none_iff, List.find?_eq_none]
  intro m hm heq
  exact h (List.mem_map.2 ⟨m, hm, by simpa using heq⟩)

theorem membersLaidOut {style : Style} (hstyle : style.IsBlank) (ms : List (String × Tree)) (n : Nat)
    (first : Bool) {blanks : Bytes} (rest : Bytes) (hblanks : Blank blanks) :
    Members Quoted (LaidOut style n) first
      (ofChars (membersLayout style n first ms) ++ (blanks ++ closeBrace :: rest)) ms rest := by
  have h := @members_layout _ _ _ hstyle Quoted (LaidOut style n) id id ms n first blanks rest hblanks
    (fun m _ => quoted_quoteText style.caution m.1) fun _ _ _ => rfl
  simpa using h

/-- Members with different names, all of them of fields, are read one after the other. -/
theorem members_read {style : Style} (hstyle : style.IsBlank) (watch : Bool)
    (h : List.Forall₂ (FieldReads mode fields depth) ms ds) (n : Nat) (first : Bool) (fuel : Nat)
    (seen : Gathered) {blanks : Bytes} (rest : Bytes) (hblanks : Blank blanks)
    (hfuel : ms.length < fuel) (hnames : (seen.fields.map (·.1) ++ ms.map (·.1)).Nodup) :
    readMembers watch (fieldReaders mode fields) depth fuel first seen
        (ofChars (membersLayout style n first ms) ++ (blanks ++ closeBrace :: rest)) =
      .ok (⟨seen.fields ++ ds, seen.ignored⟩, closeBrace :: rest) := by
  induction h generalizing first fuel seen with
  | nil =>
    obtain ⟨turns, rfl⟩ := Nat.exists_eq_add_one_of_ne_zero (Nat.ne_of_gt hfuel)
    simp only [membersLayout, ofChars_nil, List.nil_append, readMembers, nextMember_end hblanks,
      List.append_nil]
    rfl
  | @cons m d ms ds hm _ ih =>
    obtain ⟨turns, rfl⟩ := Nat.exists_eq_add_one_of_ne_zero (Nat.ne_of_gt (Nat.zero_lt_of_lt hfuel))
    obtain ⟨name, t⟩ := m
    obtain ⟨name', datum⟩ := d
    obtain ⟨hname, f, hfind, hread⟩ := hm
    obtain rfl : name' = name := hname
    have hnew : member? name' seen.fields = none :=
      member?_eq_none fun hmem => (List.nodup_append.1 hnames).2.2 _ hmem _ List.mem_cons_self rfl
    have hend := (follows_members (membersLaidOut hstyle ms n false rest hblanks)).endsNumber
    have hmore := ih false turns ⟨seen.fields ++ [(name', datum)], seen.ignored⟩
      (Nat.lt_of_succ_lt_succ hfuel) (by simpa using hnames)
    obtain ⟨body, hbody, htext⟩ := textName_quoteText style.caution name' (ofChars style.colon ++
      (ofChars (t.layout style n) ++ (ofChars (membersLayout style n false ms) ++
        (blanks ++ closeBrace :: rest))))
    obtain ⟨gap, hgap, hcolon⟩ := readColon_colon style (ofChars (t.layout style n) ++
      (ofChars (membersLayout style n false ms) ++ (blanks ++ closeBrace :: rest)))
    have hvalue := hread style hstyle n gap _ hgap hend
    simp only [membersLayout, ofChars_append, List.append_assoc, readMembers]
    rw [hbody]
    simp only [nextMember_before hstyle n first, bind, Except.bind, Bool.not_true,
      Bool.false_eq_true, if_false, htext, find?_fieldReaders, hfind, Option.map_some, hnew,
      Option.isSome_none, hcolon, hvalue]
    simpa [Reading.whole, Reading.under] using hmore

/-- A record is read from an object that lists its fields, each of them once and in any order. -/
theorem record_reads {name : String} {full : List (String × Datum)}
    (h : List.Forall₂ (FieldReads mode fields depth) ms ds) (hnames : (ms.map (·.1)).Nodup)
    (hfull : fillFields ds (fieldReaders mode fields) = .ok full) :
    ((Shape.record name fields).reader mode).Reads (depth + 1) (.object ms) (.record full) := by
  intro style hstyle n blanks rest hblanks _
  obtain ⟨close, hclose, hoctets⟩ := object_octets hstyle n ms
  have hbrace : isBlankByte openBrace = false := by decide
  have hlength := length_members (membersLaidOut hstyle ms (n + 1) true rest hclose)
    fun _ _ _ _ => LaidOut.length_le
  have hmembers := members_read hstyle mode.watch h (n + 1) true
    ((ofChars (membersLayout style (n + 1) true ms) ++ (close ++ closeBrace :: rest)).length + 1)
    ⟨[], []⟩ rest hclose (by omega) (by simpa using hnames)
  simp only [hoctets, List.cons_append, List.append_assoc, List.nil_append]
  rw [Shape.reader, readRecord, startsWith, skipBlanks_token hblanks hbrace]
  simp only [List.head?_cons, decide_true, if_true, readObject, openContainer,
    skipBlanks_token hblanks hbrace, bind, Except.bind, List.drop_succ_cons, List.drop_zero]
  refine closing_ok ?_ (closeObject_brace rest)
  rw [hmembers]
  simp only [List.nil_append, hfull]
  rfl

end Records

/-! ## Documents -/

/-- A tree that is read as a datum is read as this datum from a whole document. -/
theorem read_write {mode : Mode} {s : Shape} {t : Tree} {d : Datum} {style : Style}
    (hstyle : style.IsBlank) (h : (s.reader mode).Reads maxDepth t d) :
    s.read mode (ofText (String.ofList (style.write t))) = .ok (.whole d) := by
  obtain ⟨rest, hrest, hdocument⟩ := write_octets style t
  refine read_document ?_ hrest
  rw [hdocument]
  exact h style hstyle 0 [] rest blank_nil (ends_of_blank hrest)

end FunctionWorker.Json
