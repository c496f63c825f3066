import FunctionWorker.Proofs.Json.Characters
import FunctionWorker.Proofs.Json.Numeral

/-!
# The atoms of a document

All that a document holds besides its layout and its strings are three words and the texts of
numbers. Integers and floating-point numbers are spelled by the writer; a number that keeps its text
brings one along.

Results:
1. `integerText_spelled`, `doubleText?_spelled`, `singleText?_spelled`: what numbers are spelled
   with.
2. `Datum.tree_atoms`: what the atoms of any datum are spelled with.
-/

namespace FunctionWorker.Json

/-! ## Definitions -/

/-- A character of a numeral. -/
def isNumeralSign (c : Char) : Bool := c.isDigit || ['-', '+', '.', 'e', 'E'].contains c

/-- A character of a numeral or of one of the words that stand for no text. -/
def isAtomSign (c : Char) : Bool := isNumeralSign c || "nulltruefalse".toList.contains c

/-- All characters are those of numerals. -/
def Spelled (cs : List Char) : Prop := ∀ c ∈ cs, isNumeralSign c = true

/-- If the number keeps its text, this is the text of a numeral. -/
def Number.Spelled : Number → Prop
  | .numeral s => Json.Spelled s.toList
  | _ => True

mutual

/-- All numbers of the value that keep their text have one. -/
def Value.Spelled : Value → Prop
  | .number n => n.Spelled
  | .array items => allSpelled items
  | .object members => membersSpelled members
  | _ => True

def allSpelled : List Value → Prop
  | [] => True
  | v :: rest => v.Spelled ∧ allSpelled rest

def membersSpelled : List (String × Value) → Prop
  | [] => True
  | (_, v) :: rest => v.Spelled ∧ membersSpelled rest

end

mutual

/-- All numbers of the datum that keep their text have one; no such number names an entry. -/
def Datum.Spelled : Datum → Prop
  | .present v => v.Spelled
  | .list items => itemsSpelled items
  | .table entries => entriesSpelled entries
  | .record fields => fieldsSpelled fields
  | .wrapper v => v.Spelled
  | .valueChoice _ v => v.Spelled
  | .tupleChoice _ items => itemsSpelled items
  | .recordChoice _ fields => fieldsSpelled fields
  | .untyped v => v.Spelled
  | _ => True

def itemsSpelled : List Datum → Prop
  | [] => True
  | v :: rest => v.Spelled ∧ itemsSpelled rest

def entriesSpelled : List (Datum × Datum) → Prop
  | [] => True
  | (_, v) :: rest => v.Spelled ∧ entriesSpelled rest

def fieldsSpelled : List (String × Datum) → Prop
  | [] => True
  | (_, v) :: rest => v.Spelled ∧ fieldsSpelled rest

end

/-! ## Numbers -/

namespace AtomsLemmas

theorem spelled_nil : Spelled [] := fun _ h => absurd h List.not_mem_nil

theorem spelled_of_all {cs : List Char} (h : cs.all isNumeralSign = true) : Spelled cs :=
  List.all_eq_true.1 h

theorem spelled_append {cs ds : List Char} (hcs : Spelled cs) (hds : Spelled ds) :
    Spelled (cs ++ ds) := by
  intro c hc
  rcases List.mem_append.1 hc with hc | hc
  · exact hcs c hc
  · exact hds c hc

theorem spelled_cons {c : Char} {cs : List Char} (hc : isNumeralSign c = true) (hcs : Spelled cs) :
    Spelled (c :: cs) := List.forall_mem_cons.2 ⟨hc, hcs⟩

theorem spelled_subset {cs ds : List Char} (h : cs ⊆ ds) (hds : Spelled ds) : Spelled cs :=
  fun c hc => hds c (h hc)

theorem spelled_zeros (n : Nat) : Spelled (List.replicate n '0') := by
  intro c hc
  rw [List.eq_of_mem_replicate hc]
  decide

theorem spelled_digitsOf (n : Nat) : Spelled (Decimal.digitsOf n) := by
  intro c hc
  rw [isNumeralSign, Text.isDigit_digitsOf n c hc, Bool.true_or]

theorem spelled_pointed {fill ds : List Char} (hfill : Spelled fill) (hds : Spelled ds)
    (places : Int) : Spelled (Decimal.pointed fill ds places) := by
  have hpoint : isNumeralSign '.' = true := by decide
  unfold Decimal.pointed
  split
  · have hzero : Spelled ['0', '.'] := spelled_of_all (by decide)
    exact spelled_append (spelled_append hzero (spelled_zeros _)) hds
  · have hwhole : Spelled (ds.take places.toNat ++
        List.replicate (places.toNat - ds.length) '0') :=
      spelled_append (spelled_subset (List.take_subset _ _) hds) (spelled_zeros _)
    dsimp only
    split
    · exact spelled_append hwhole hfill
    · exact spelled_append hwhole
        (spelled_cons hpoint (spelled_subset (List.drop_subset _ _) hds))

theorem spelled_scientific {ds : List Char} (hds : Spelled ds) (first : Int) :
    Spelled (Decimal.scientific ds first) := by
  have hexponent : Spelled ['e', if first < 0 then '-' else '+'] := by
    split
    · exact spelled_of_all (by decide)
    · exact spelled_of_all (by decide)
  refine spelled_append (spelled_append ?_ hexponent) (spelled_digitsOf _)
  split
  · next d e rest =>
    obtain ⟨hd, hrest⟩ := List.forall_mem_cons.1 hds
    exact spelled_cons hd (spelled_cons (by decide) hrest)
  · exact hds

theorem spelled_sign (negative : Bool) : Spelled (if negative then ['-'] else []) := by
  cases negative with
  | true => exact spelled_of_all (by decide)
  | false => exact spelled_nil

theorem spelled_write (style : Decimal.Spelling) (x : Decimal.Scaled) : Spelled (style.write x) := by
  have hfill : Spelled ['.', '0'] := spelled_of_all (by decide)
  have hdigits := spelled_digitsOf x.digits
  unfold Decimal.Spelling.write
  dsimp only
  split
  · exact spelled_pointed hfill hdigits _
  · exact spelled_scientific hdigits _

theorem spelled_binary? {style : Decimal.Spelling} {x : Decimal.Binary} {cs : List Char}
    (h : style.binary? x = some cs) : Spelled cs := by
  cases x with
  | infinite | nan => cases h
  | finite negative significand exponent lowest =>
    simp only [Decimal.Spelling.binary?] at h
    split at h
    all_goals
      cases h
      refine spelled_append (spelled_sign negative) ?_
    · exact spelled_of_all (by decide)
    · exact spelled_write style _

end AtomsLemmas

open AtomsLemmas

theorem integerText_spelled (n : Int) : Spelled (integerText n).toList := by
  rw [integerText, String.toList_ofList]
  refine spelled_append ?_ (spelled_digitsOf _)
  split
  · exact spelled_sign true
  · exact spelled_nil

theorem doubleText?_spelled {x : Float} {s : String} (h : doubleText? x = some s) :
    Spelled s.toList := by
  obtain ⟨cs, hcs, rfl⟩ := Option.map_eq_some_iff.1 h
  rw [String.toList_ofList]
  exact spelled_binary? hcs

theorem singleText?_spelled {x : Float32} {s : String} (h : singleText? x = some s) :
    Spelled s.toList := by
  obtain ⟨cs, hcs, rfl⟩ := Option.map_eq_some_iff.1 h
  rw [String.toList_ofList]
  exact spelled_binary? hcs

theorem Number.text?_spelled {n : Number} (hn : n.Spelled) {s : String} (h : n.text? = some s) :
    Json.Spelled s.toList := by
  cases n with
  | integer i =>
    cases h
    exact integerText_spelled i
  | float x => exact doubleText?_spelled h
  | numeral text =>
    cases h
    exact hn

/-! ## Trees -/

namespace AtomsLemmas

theorem atoms_of_spelled {s : String} (h : Spelled s.toList) :
    (Tree.atom s).AtomsAll (isAtomSign · = true) := by
  intro c hc
  rw [isAtomSign, h c hc, Bool.true_or]

theorem atoms_null : (Tree.atom "null").AtomsAll (isAtomSign · = true) :=
  List.all_eq_true.1 (by decide : "null".toList.all isAtomSign = true)

theorem atoms_bool (b : Bool) : (Tree.atom (boolText b)).AtomsAll (isAtomSign · = true) := by
  have hall : (boolText b).toList.all isAtomSign = true := by cases b <;> decide
  exact List.all_eq_true.1 hall

theorem atoms_ofNumeral {text? : Option String} (h : ∀ s, text? = some s → Spelled s.toList) :
    (Tree.ofNumeral text?).AtomsAll (isAtomSign · = true) := by
  cases text? with
  | none => exact atoms_null
  | some s => exact atoms_of_spelled (h s rfl)

/-- What a step gives comes from what the step before it gave. -/
theorem bind_eq_ok {ε α β : Type} {x : Except ε α} {f : α → Except ε β} {b : β}
    (h : (x >>= f) = .ok b) : ∃ a, x = .ok a ∧ f a = .ok b := by
  cases x with
  | error e => cases h
  | ok a => exact ⟨a, rfl, h⟩

end AtomsLemmas

mutual

theorem Value.tree_atoms : ∀ v : Value, v.Spelled → v.tree.AtomsAll (isAtomSign · = true)
  | .null, _ => atoms_null
  | .bool b, _ => atoms_bool b
  | .number _, h => atoms_ofNumeral fun _ hs => Number.text?_spelled h hs
  | .text _, _ => trivial
  | .array items, h => treesOf_atoms items h
  | .object members, h => membersTree_atoms members h

theorem treesOf_atoms : ∀ items : List Value, allSpelled items →
    itemsAtomsAll (isAtomSign · = true) (treesOf items)
  | [], _ => trivial
  | v :: rest, h => ⟨Value.tree_atoms v h.1, treesOf_atoms rest h.2⟩

theorem membersTree_atoms : ∀ members : List (String × Value), membersSpelled members →
    membersAtomsAll (isAtomSign · = true) (membersTree members)
  | [], _ => trivial
  | (_, v) :: rest, h => ⟨Value.tree_atoms v h.1, membersTree_atoms rest h.2⟩

end

mutual

/-- The atoms of a datum are numerals and words, whatever the datum is. -/
theorem Datum.tree_atoms : ∀ (d : Datum) {t : Tree}, d.Spelled → d.tree = .ok t →
    t.AtomsAll (isAtomSign · = true)
  | .unit, _, _, h => by cases h; exact atoms_null
  | .absent, _, _, h => by cases h; exact atoms_null
  | .present v, _, hd, h => Datum.tree_atoms v hd h
  | .bool b, _, _, h => by cases h; exact atoms_bool b
  | .int n, _, _, h => by cases h; exact atoms_of_spelled (integerText_spelled n)
  | .double x, _, _, h => by cases h; exact atoms_ofNumeral fun _ => doubleText?_spelled
  | .single x, _, _, h => by cases h; exact atoms_ofNumeral fun _ => singleText?_spelled
  | .char _, _, _, h => by cases h; trivial
  | .text _, _, _, h => by cases h; trivial
  | .bytes b, _, _, h => by
    cases h
    refine itemsAtomsAll_iff.2 fun t ht => ?_
    obtain ⟨o, _, rfl⟩ := List.mem_map.1 ht
    exact atoms_of_spelled (integerText_spelled o.toNat)
  | .list items, _, hd, h => by
    obtain ⟨ts, hts, hlast⟩ := bind_eq_ok h
    cases hlast
    exact itemTrees_atoms items hd hts
  | .table entries, _, hd, h => by
    obtain ⟨ms, hms, hlast⟩ := bind_eq_ok h
    cases hlast
    exact entryTrees_atoms entries hd hms
  | .record fields, _, hd, h => by
    obtain ⟨ms, hms, hlast⟩ := bind_eq_ok h
    cases hlast
    exact fieldTrees_atoms fields hd hms
  | .wrapper v, _, hd, h => Datum.tree_atoms v hd h
  | .plainChoice _, _, _, h => by cases h; trivial
  | .valueChoice _ v, _, hd, h => by
    obtain ⟨t, ht, hlast⟩ := bind_eq_ok h
    cases hlast
    exact ⟨Datum.tree_atoms v hd ht, trivial⟩
  | .tupleChoice _ items, _, hd, h => by
    obtain ⟨ts, hts, hlast⟩ := bind_eq_ok h
    cases hlast
    exact ⟨itemTrees_atoms items hd hts, trivial⟩
  | .recordChoice _ fields, _, hd, h => by
    obtain ⟨ms, hms, hlast⟩ := bind_eq_ok h
    cases hlast
    exact ⟨fieldTrees_atoms fields hd hms, trivial⟩
  | .untyped v, _, hd, h => by cases h; exact Value.tree_atoms v hd
  | .refused _, _, _, h => by cases h

theorem itemTrees_atoms : ∀ (items : List Datum) {ts : List Tree}, itemsSpelled items →
    itemTrees items = .ok ts → itemsAtomsAll (isAtomSign · = true) ts
  | [], _, _, h => by cases h; trivial
  | v :: rest, _, hd, h => by
    obtain ⟨t, ht, h⟩ := bind_eq_ok h
    obtain ⟨ts, hts, hlast⟩ := bind_eq_ok h
    cases hlast
    exact ⟨Datum.tree_atoms v hd.1 ht, itemTrees_atoms rest hd.2 hts⟩

theorem entryTrees_atoms : ∀ (entries : List (Datum × Datum)) {ms : List (String × Tree)},
    entriesSpelled entries → entryTrees entries = .ok ms →
      membersAtomsAll (isAtomSign · = true) ms
  | [], _, _, h => by cases h; trivial
  | (k, v) :: rest, _, hd, h => by
    obtain ⟨name, _, h⟩ := bind_eq_ok h
    obtain ⟨t, ht, h⟩ := bind_eq_ok h
    obtain ⟨ms, hms, hlast⟩ := bind_eq_ok h
    cases hlast
    exact ⟨Datum.tree_atoms v hd.1 ht, entryTrees_atoms rest hd.2 hms⟩

theorem fieldTrees_atoms : ∀ (fields : List (String × Datum)) {ms : List (String × Tree)},
    fieldsSpelled fields → fieldTrees fields = .ok ms →
      membersAtomsAll (isAtomSign · = true) ms
  | [], _, _, h => by cases h; trivial
  | (_, v) :: rest, _, hd, h => by
    obtain ⟨t, ht, h⟩ := bind_eq_ok h
    obtain ⟨ms, hms, hlast⟩ := bind_eq_ok h
    cases hlast
    exact ⟨Datum.tree_atoms v hd.1 ht, fieldTrees_atoms rest hd.2 hms⟩

end

end FunctionWorker.Json
