import FunctionWorker.Json.Reader.Shaped
import FunctionWorker.Proofs.Json.Outline

/-!
# Members that no record declares

The shape of a document and its outline say which of its parts are read and as what. They also say
where an object that is read as a record has a member that the record does not declare. A site in a
document is given by the indices on the way to it, so sites are ordered as the octets are.

Results:
1. `mem_unknowns_iff`: `Shape.unknowns` lists the undeclared members, and nothing else.
2. `spared`: what is never undeclared.
3. `ordered_unknowns`: the undeclared members are listed in the order of the document.
-/

namespace FunctionWorker.Json

variable {α σ : Type}

/-! ## Definitions -/

/-- A site in a document: at every container on the way there, the index of the part to go to. -/
abbrev Site := List Nat

/-- The part at the first site stands in front of the one at the second. -/
def Site.Before (site site' : Site) : Prop := List.Lex (· < ·) site site'

/-- What comes with an alternative is read like this. -/
def Alternative.shape (name : String) : Alternative Shape → Shape
  | .plain => .unit
  | .value s => .wrapper s
  | .tuple ss => .tuple ss
  | .record fields => .record name fields

/-- Where a document of this outline is read as the shape, the part at the site is read as well. The
path names the way there, and the last two say as what it is read and what its outline is. -/
inductive Shape.Reaches : Shape → Outline → Site → Path → Shape → Outline → Prop
  | here {s : Shape} {d : Outline} : s.Reaches d [] [] s d
  | option {s s' : Shape} {d d' : Outline} {site : Site} {path : Path} :
      s.Reaches d site path s' d' → (Shape.option s).Reaches d site (innerStep :: path) s' d'
  | wrapper {s s' : Shape} {d d' : Outline} {site : Site} {path : Path} :
      s.Reaches d site path s' d' → (Shape.wrapper s).Reaches d site (innerStep :: path) s' d'
  | item {s s' : Shape} {ds : List Outline} {i : Nat} {d d' : Outline} {site : Site} {path : Path} :
      ds[i]? = some d → s.Reaches d site path s' d' →
      (Shape.list s).Reaches (.list ds) (i :: site) (toString i :: path) s' d'
  | entry {key : KeyShape} {s s' : Shape} {ms : List (Bytes × Outline)} {i : Nat}
      {m : Bytes × Outline} {d' : Outline} {site : Site} {path : Path} :
      ms[i]? = some m → s.Reaches m.2 site path s' d' →
      (Shape.table key s).Reaches (.object ms) (i :: site) (nameText m.1 :: path) s' d'
  | part {ss : List Shape} {s s' : Shape} {ds : List Outline} {i : Nat} {d d' : Outline}
      {site : Site} {path : Path} :
      ss[i]? = some s → ds[i]? = some d → s.Reaches d site path s' d' →
      (Shape.tuple ss).Reaches (.list ds) (i :: site) (toString i :: path) s' d'
  | position {name : String} {fields : List (String × Absence × Shape)}
      {f : String × Absence × Shape} {s' : Shape} {ds : List Outline} {i : Nat} {d d' : Outline}
      {site : Site} {path : Path} :
      fields[i]? = some f → ds[i]? = some d → f.2.2.Reaches d site path s' d' →
      (Shape.record name fields).Reaches (.list ds) (i :: site) (toString i :: path) s' d'
  | field {name : String} {fields : List (String × Absence × Shape)} {f : String × Absence × Shape}
      {s' : Shape} {ms : List (Bytes × Outline)} {i : Nat} {m : Bytes × Outline} {d' : Outline}
      {site : Site} {path : Path} :
      ms[i]? = some m → fields.find? (fun f => f.1 = nameText m.1) = some f →
      f.2.2.Reaches m.2 site path s' d' →
      (Shape.record name fields).Reaches (.object ms) (i :: site) (nameText m.1 :: path) s' d'
  | alternative {name : String} {alternatives : List (String × Alternative Shape)}
      {a : String × Alternative Shape} {s' : Shape} {m : Bytes × Outline} {d' : Outline}
      {site : Site} {path : Path} :
      alternatives.find? (fun a => a.1 = nameText m.1) = some a →
      (a.2.shape a.1).Reaches m.2 site path s' d' →
      (Shape.choice name alternatives).Reaches (.object [m]) (0 :: site) path s' d'

/-- The member at the site stands in an object that is read as a record, and the record does not
declare it. -/
inductive Shape.Undeclared (s : Shape) (d : Outline) : Site → Path → Prop
  | mk {site : Site} {path : Path} {name : String} {fields : List (String × Absence × Shape)}
      {ms : List (Bytes × Outline)} {i : Nat} {m : Bytes × Outline} :
      s.Reaches d site path (.record name fields) (.object ms) → ms[i]? = some m →
      (∀ f ∈ fields, f.1 ≠ nameText m.1) → s.Undeclared d (site ++ [i]) (path ++ [nameText m.1])

/-- What no undeclared member is: a part of a value of any kind, an entry of a table, or a field that
the record declares. -/
structure Shape.Spared (s : Shape) (d : Outline) : Prop where
  untyped {before : Site} {steps : Path} {d' : Outline} : s.Reaches d before steps .untyped d' →
    ∀ inner path, ¬ s.Undeclared d (before ++ inner) path
  entry {before : Site} {steps : Path} {key : KeyShape} {s' : Shape} {ms : List (Bytes × Outline)} :
    s.Reaches d before steps (.table key s') (.object ms) →
    ∀ i path, ¬ s.Undeclared d (before ++ [i]) path
  field {before : Site} {steps : Path} {name : String} {fields : List (String × Absence × Shape)}
    {ms : List (Bytes × Outline)} {i : Nat} {m : Bytes × Outline} :
    s.Reaches d before steps (.record name fields) (.object ms) → ms[i]? = some m →
    (∃ f ∈ fields, f.1 = nameText m.1) → ∀ path, ¬ s.Undeclared d (before ++ [i]) path

/-! ## The undeclared members in turn -/

/-- An undeclared member: its site and the path that names it. -/
abbrev Finding := Site × Path

/-- Lists the undeclared members of a part by its outline. -/
abbrev Finder := Outline → List Finding

/-- The same members, named from one step further up. -/
def named (step : String) (found : List Finding) : List Finding :=
  found.map fun u => (u.1, step :: u.2)

/-- The same members, placed from one container further up. -/
def placed (index : Nat) (found : List Finding) : List Finding :=
  found.map fun u => (index :: u.1, u.2)

/-- The undeclared members of parts in turn, by their indices. -/
def inTurn (found : Nat → α → List Finding) (index : Nat) : List α → List Finding
  | [] => []
  | a :: rest => placed index (found index a) ++ inTurn found (index + 1) rest

def inList (finder : Finder) : Finder
  | .list ds => inTurn (fun i d => named (toString i) (finder d)) 0 ds
  | _ => []

def inTable (finder : Finder) : Finder
  | .object ms => inTurn (fun _ m => named (nameText m.1) (finder m.2)) 0 ms
  | _ => []

def inParts (finders : List Finder) : Finder
  | .list ds => inTurn (fun i part => named (toString i) (part.1 part.2)) 0 (finders.zip ds)
  | _ => []

/-- A member of a record is undeclared itself, or those inside it are counted. -/
def inMember (fields : List (String × Finder)) (name : String) (d : Outline) : List Finding :=
  match fields.find? fun f => f.1 = name with
  | some f => named name (f.2 d)
  | none => [([], [name])]

def inRecord (fields : List (String × Finder)) : Finder
  | .object ms => inTurn (fun _ m => inMember fields (nameText m.1) m.2) 0 ms
  | d => inParts (fields.map (·.2)) d

def inChoice (alternatives : List (String × Finder)) : Finder
  | .object [m] =>
    match alternatives.find? fun a => a.1 = nameText m.1 with
    | some a => placed 0 (a.2 m.2)
    | none => []
  | _ => []

mutual

/-- The undeclared members of a document that is read as the shape. -/
def Shape.unknowns : Shape → Finder
  | .option s => fun d => named innerStep (s.unknowns d)
  | .wrapper s => fun d => named innerStep (s.unknowns d)
  | .list s => inList s.unknowns
  | .table _ s => inTable s.unknowns
  | .tuple ss => inParts (partsUnknowns ss)
  | .record _ fields => inRecord (fieldsUnknowns fields)
  | .choice _ alternatives => inChoice (alternativesUnknowns alternatives)
  | _ => fun _ => []

def partsUnknowns : List Shape → List Finder
  | [] => []
  | s :: rest => s.unknowns :: partsUnknowns rest

def fieldsUnknowns : List (String × Absence × Shape) → List (String × Finder)
  | [] => []
  | (name, _, s) :: rest => (name, s.unknowns) :: fieldsUnknowns rest

def alternativesUnknowns : List (String × Alternative Shape) → List (String × Finder)
  | [] => []
  | (name, a) :: rest => (name, a.unknowns) :: alternativesUnknowns rest

def Alternative.unknowns : Alternative Shape → Finder
  | .plain => fun _ => []
  | .value s => fun d => named innerStep (s.unknowns d)
  | .tuple ss => inParts (partsUnknowns ss)
  | .record fields => inRecord (fieldsUnknowns fields)

end

/-- Earlier sites come first. -/
def Ordered (found : List Finding) : Prop := found.Pairwise fun u v => Site.Before u.1 v.1

/-! ## Shapes by their parts -/

/-- The shapes of scalars, and of values of any kind. -/
inductive Shape.Flat : Shape → Prop
  | untyped : Shape.untyped.Flat
  | unit : Shape.unit.Flat
  | bool : Shape.bool.Flat
  | int (range : IntRange) : (Shape.int range).Flat
  | double : Shape.double.Flat
  | char : Shape.char.Flat
  | text : Shape.text.Flat

/-- Everything that comes with the alternative satisfies `P`. -/
def Alternative.All (P : σ → Prop) : Alternative σ → Prop
  | .plain => True
  | .value s => P s
  | .tuple ss => ∀ s ∈ ss, P s
  | .record fields => ∀ f ∈ fields, P f.2.2

/-- What passes from the parts of a shape to the shape. -/
structure Shape.Inherited (P : Shape → Prop) : Prop where
  flat : ∀ s, s.Flat → P s
  option : ∀ s, P s → P (.option s)
  wrapper : ∀ s, P s → P (.wrapper s)
  list : ∀ s, P s → P (.list s)
  table : ∀ key s, P s → P (.table key s)
  tuple : ∀ ss, (∀ s ∈ ss, P s) → P (.tuple ss)
  record : ∀ name fields, (∀ f ∈ fields, P f.2.2) → P (.record name fields)
  choice : ∀ name alternatives,
    (∀ a ∈ alternatives, a.2.All P ∧ P (a.2.shape a.1)) → P (.choice name alternatives)

section Inherited

variable {P : Shape → Prop}

theorem Shape.Inherited.ofShape (h : Shape.Inherited P) {name : String} {a : Alternative Shape}
    (ha : a.All P) : P (a.shape name) := by
  cases a with
  | plain => exact h.flat _ .unit
  | value s => exact h.wrapper s ha
  | tuple ss => exact h.tuple ss ha
  | record fields => exact h.record name fields ha

mutual

theorem Shape.Inherited.holds (h : Shape.Inherited P) : ∀ s, P s
  | .untyped => h.flat _ .untyped
  | .unit => h.flat _ .unit
  | .bool => h.flat _ .bool
  | .int range => h.flat _ (.int range)
  | .double => h.flat _ .double
  | .char => h.flat _ .char
  | .text => h.flat _ .text
  | .option s => h.option s (h.holds s)
  | .wrapper s => h.wrapper s (h.holds s)
  | .list s => h.list s (h.holds s)
  | .table key s => h.table key s (h.holds s)
  | .tuple ss => h.tuple ss (h.ofParts ss)
  | .record name fields => h.record name fields (h.ofFields fields)
  | .choice name alternatives => h.choice name alternatives fun a ha =>
      have hall := h.ofAlternatives alternatives a ha
      ⟨hall, h.ofShape hall⟩

theorem Shape.Inherited.ofParts (h : Shape.Inherited P) : ∀ ss : List Shape, ∀ s ∈ ss, P s
  | [] => fun _ hs => nomatch hs
  | s :: rest => List.forall_mem_cons.2 ⟨h.holds s, h.ofParts rest⟩

theorem Shape.Inherited.ofFields (h : Shape.Inherited P) :
    ∀ fields : List (String × Absence × Shape), ∀ f ∈ fields, P f.2.2
  | [] => fun _ hf => nomatch hf
  | (_, _, s) :: rest => List.forall_mem_cons.2 ⟨h.holds s, h.ofFields rest⟩

theorem Shape.Inherited.ofAlternatives (h : Shape.Inherited P) :
    ∀ alternatives : List (String × Alternative Shape), ∀ a ∈ alternatives, a.2.All P
  | [] => fun _ ha => nomatch ha
  | (_, a) :: rest => List.forall_mem_cons.2 ⟨h.ofAlternative a, h.ofAlternatives rest⟩

theorem Shape.Inherited.ofAlternative (h : Shape.Inherited P) : ∀ a : Alternative Shape, a.All P
  | .plain => trivial
  | .value s => h.holds s
  | .tuple ss => h.ofParts ss
  | .record fields => h.ofFields fields

end

end Inherited

/-! ## What is listed -/

namespace UndeclaredLemmas

theorem mem_named {step : String} {found : List Finding} {site : Site} {path : Path} :
    (site, path) ∈ named step found ↔ ∃ inner, (site, inner) ∈ found ∧ path = step :: inner := by
  simp [named, and_comm, eq_comm]

theorem mem_placed {index : Nat} {found : List Finding} {site : Site} {path : Path} :
    (site, path) ∈ placed index found ↔ ∃ inner, (inner, path) ∈ found ∧ site = index :: inner := by
  simp [placed, and_comm, eq_comm]

section InTurn

variable {found : Nat → α → List Finding}

theorem mem_inTurn_from {as : List α} {index : Nat} {site : Site} {path : Path} :
    (site, path) ∈ inTurn found index as ↔ ∃ i a inner, as[i]? = some a ∧
      (inner, path) ∈ found (index + i) a ∧ site = (index + i) :: inner := by
  induction as generalizing index with
  | nil => simp [inTurn]
  | cons a as ih =>
    rw [inTurn, List.mem_append, mem_placed, ih]
    constructor
    · rintro (⟨inner, hmem, rfl⟩ | ⟨i, a', inner, hi, hmem, rfl⟩)
      · exact ⟨0, a, inner, rfl, hmem, rfl⟩
      · exact ⟨i + 1, a', inner, hi, by rwa [Nat.add_comm i, ← Nat.add_assoc],
          by rw [Nat.add_comm i, ← Nat.add_assoc]⟩
    · rintro ⟨i, a', inner, hi, hmem, rfl⟩
      cases i with
      | zero =>
        obtain rfl := Option.some.inj hi
        exact .inl ⟨inner, hmem, rfl⟩
      | succ i =>
        rw [Nat.add_comm i, ← Nat.add_assoc] at hmem ⊢
        exact .inr ⟨i, a', inner, hi, hmem, rfl⟩

theorem mem_inTurn {as : List α} {site : Site} {path : Path} :
    (site, path) ∈ inTurn found 0 as ↔ ∃ i a inner, as[i]? = some a ∧ (inner, path) ∈ found i a ∧
      site = i :: inner := by
  rw [mem_inTurn_from]
  simp only [Nat.zero_add]

end InTurn

theorem partsUnknowns_eq_map (ss : List Shape) : partsUnknowns ss = ss.map Shape.unknowns := by
  induction ss with
  | nil => rfl
  | cons s rest ih => rw [partsUnknowns, ih, List.map_cons]

theorem fieldsUnknowns_eq_map (fields : List (String × Absence × Shape)) :
    fieldsUnknowns fields = fields.map fun f => (f.1, f.2.2.unknowns) := by
  induction fields with
  | nil => rfl
  | cons f rest ih => rw [fieldsUnknowns, ih, List.map_cons]

theorem alternativesUnknowns_eq_map (alternatives : List (String × Alternative Shape)) :
    alternativesUnknowns alternatives = alternatives.map fun a => (a.1, a.2.unknowns) := by
  induction alternatives with
  | nil => rfl
  | cons a rest ih => rw [alternativesUnknowns, ih, List.map_cons]

theorem unknowns_shape (name : String) (a : Alternative Shape) :
    a.unknowns = (a.shape name).unknowns := by
  cases a <;> rfl

theorem unknowns_flat {s : Shape} (h : s.Flat) (d : Outline) : s.unknowns d = [] := by
  cases h <;> rfl

theorem mem_inParts {finder : α → Finder} {as : List α} {ds : List Outline} {site : Site}
    {path : Path} : (site, path) ∈ inParts (as.map finder) (.list ds) ↔ ∃ i a d inner steps,
      as[i]? = some a ∧ ds[i]? = some d ∧ (inner, steps) ∈ finder a d ∧ site = i :: inner ∧
        path = toString i :: steps := by
  rw [inParts, mem_inTurn]
  constructor
  · rintro ⟨i, ⟨_, d⟩, inner, hi, hnamed, rfl⟩
    obtain ⟨hfinder, hd⟩ := List.getElem?_zip_eq_some.1 hi
    obtain ⟨a, ha, rfl⟩ := List.getElem?_map.symm.trans hfinder |> Option.map_eq_some_iff.1
    obtain ⟨steps, hmem, rfl⟩ := mem_named.1 hnamed
    exact ⟨i, a, d, inner, steps, ha, hd, hmem, rfl, rfl⟩
  · rintro ⟨i, a, d, inner, steps, ha, hd, hmem, rfl, rfl⟩
    refine ⟨i, (finder a, d), inner, List.getElem?_zip_eq_some.2 ⟨?_, hd⟩,
      mem_named.2 ⟨steps, hmem, rfl⟩, rfl⟩
    rw [List.getElem?_map, ha, Option.map_some]

theorem unknowns_positions (name : String) (fields : List (String × Absence × Shape))
    (ds : List Outline) : (Shape.record name fields).unknowns (.list ds) =
      inParts (fields.map fun f => f.2.2.unknowns) (.list ds) := by
  rw [Shape.unknowns, fieldsUnknowns_eq_map, inRecord, List.map_map]
  · rfl
  · nofun

section Member

variable {fields : List (String × Absence × Shape)} {name : String}

theorem find?_fieldsUnknowns (fields : List (String × Absence × Shape)) (name : String) :
    (fieldsUnknowns fields).find? (fun f => f.1 = name) =
      (fields.find? fun f => f.1 = name).map fun f => (f.1, f.2.2.unknowns) := by
  rw [fieldsUnknowns_eq_map, List.find?_map]
  rfl

theorem inMember_declared {f : String × Absence × Shape}
    (h : fields.find? (fun f => f.1 = name) = some f) (d : Outline) :
    inMember (fieldsUnknowns fields) name d = named name (f.2.2.unknowns d) := by
  rw [inMember, find?_fieldsUnknowns, h]
  rfl

theorem inMember_undeclared (h : fields.find? (fun f => f.1 = name) = none) (d : Outline) :
    inMember (fieldsUnknowns fields) name d = [([], [name])] := by
  rw [inMember, find?_fieldsUnknowns, h]
  rfl

theorem mem_inMember {d : Outline} {site : Site} {path : Path} :
    (site, path) ∈ inMember (fieldsUnknowns fields) name d ↔
      (∃ f steps, fields.find? (fun f => f.1 = name) = some f ∧ (site, steps) ∈ f.2.2.unknowns d ∧
        path = name :: steps) ∨
      ((∀ f ∈ fields, f.1 ≠ name) ∧ site = [] ∧ path = [name]) := by
  cases hf : fields.find? fun f => f.1 = name with
  | some f =>
    have hname : f.1 = name := by simpa using List.find?_some hf
    have hdeclared : ¬ ∀ f ∈ fields, f.1 ≠ name := fun h => h f (List.mem_of_find?_eq_some hf) hname
    rw [inMember_declared hf]
    simp only [mem_named, Option.some.injEq, exists_and_left, exists_eq_left', hdeclared, false_and,
      or_false]
  | none =>
    have hundeclared : ∀ f ∈ fields, f.1 ≠ name := by simpa using hf
    rw [inMember_undeclared hf]
    simp only [List.mem_singleton, Prod.mk.injEq, reduceCtorEq, false_and, exists_false, false_or]
    exact ⟨fun h => ⟨hundeclared, h⟩, And.right⟩

end Member

theorem find?_alternativesUnknowns (alternatives : List (String × Alternative Shape)) (name : String) :
    (alternativesUnknowns alternatives).find? (fun a => a.1 = name) =
      (alternatives.find? fun a => a.1 = name).map fun a => (a.1, a.2.unknowns) := by
  rw [alternativesUnknowns_eq_map, List.find?_map]
  rfl

theorem inChoice_named {alternatives : List (String × Alternative Shape)}
    {a : String × Alternative Shape} {m : Bytes × Outline}
    (h : alternatives.find? (fun a => a.1 = nameText m.1) = some a) :
    inChoice (alternativesUnknowns alternatives) (.object [m]) = placed 0 (a.2.unknowns m.2) := by
  rw [inChoice, find?_alternativesUnknowns, h]
  rfl

theorem mem_inChoice {alternatives : List (String × Alternative Shape)} {d : Outline} {site : Site}
    {path : Path} : (site, path) ∈ inChoice (alternativesUnknowns alternatives) d ↔ ∃ m a inner,
      d = .object [m] ∧ alternatives.find? (fun a => a.1 = nameText m.1) = some a ∧
        (inner, path) ∈ (a.2.shape a.1).unknowns m.2 ∧ site = 0 :: inner := by
  constructor
  · intro h
    unfold inChoice at h
    split at h
    · next m =>
      rw [find?_alternativesUnknowns] at h
      cases ha : alternatives.find? fun a => a.1 = nameText m.1 with
      | none =>
        rw [ha] at h
        cases h
      | some a =>
        rw [ha] at h
        obtain ⟨inner, hmem, rfl⟩ := mem_placed.1 h
        exact ⟨m, a, inner, rfl, ha, unknowns_shape a.1 a.2 ▸ hmem, rfl⟩
    · cases h
  · rintro ⟨m, a, inner, rfl, ha, hmem, rfl⟩
    rw [inChoice_named ha]
    rw [← unknowns_shape] at hmem
    exact mem_placed.2 ⟨inner, hmem, rfl⟩

/-! What is undeclared in a part is undeclared in the whole. -/

theorem Undeclared.lift {s t : Shape} {d e : Outline} {site : Site} {path : Path} (above : Site)
    (steps : Path) (h : s.Undeclared d site path)
    (hreach : ∀ {site path s' d'}, s.Reaches d site path s' d' →
      t.Reaches e (above ++ site) (steps ++ path) s' d') :
    t.Undeclared e (above ++ site) (steps ++ path) := by
  cases h with
  | mk hrecord hm hfields =>
    rw [← List.append_assoc, ← List.append_assoc]
    exact .mk (hreach hrecord) hm hfields

/-- Whatever is listed is undeclared: the way to it goes on from the way to its part. -/
theorem undeclared_inherited :
    Shape.Inherited fun s => ∀ d site path, (site, path) ∈ s.unknowns d → s.Undeclared d site path where
  flat s hs d site path h := by
    rw [unknowns_flat hs] at h
    cases h
  option s ih d site path h := by
    obtain ⟨steps, hmem, rfl⟩ := mem_named.1 h
    exact Undeclared.lift [] [innerStep] (ih d site steps hmem) .option
  wrapper s ih d site path h := by
    obtain ⟨steps, hmem, rfl⟩ := mem_named.1 h
    exact Undeclared.lift [] [innerStep] (ih d site steps hmem) .wrapper
  list s ih d site path h := by
    cases d with
    | scalar _ | object _ => cases h
    | list ds =>
      obtain ⟨i, d, inner, hi, hnamed, rfl⟩ := mem_inTurn.1 h
      obtain ⟨steps, hmem, rfl⟩ := mem_named.1 hnamed
      exact Undeclared.lift [i] [toString i] (ih d inner steps hmem) (.item hi)
  table key s ih d site path h := by
    cases d with
    | scalar _ | list _ => cases h
    | object ms =>
      obtain ⟨i, m, inner, hi, hnamed, rfl⟩ := mem_inTurn.1 h
      obtain ⟨steps, hmem, rfl⟩ := mem_named.1 hnamed
      exact Undeclared.lift [i] [nameText m.1] (ih m.2 inner steps hmem) (.entry hi)
  tuple ss ih d site path h := by
    rw [Shape.unknowns, partsUnknowns_eq_map] at h
    cases d with
    | scalar _ | object _ => cases h
    | list ds =>
      obtain ⟨i, s, d, inner, steps, hs, hd, hmem, rfl, rfl⟩ := mem_inParts.1 h
      exact Undeclared.lift [i] [toString i] (ih s (List.mem_of_getElem? hs) d inner steps hmem)
        (.part hs hd)
  record name fields ih d site path h := by
    cases d with
    | scalar _ => cases h
    | list ds =>
      rw [unknowns_positions] at h
      obtain ⟨i, f, d, inner, steps, hf, hd, hmem, rfl, rfl⟩ := mem_inParts.1 h
      exact Undeclared.lift [i] [toString i] (ih f (List.mem_of_getElem? hf) d inner steps hmem)
        (.position hf hd)
    | object ms =>
      obtain ⟨i, m, inner, hi, hmember, rfl⟩ := mem_inTurn.1 h
      obtain ⟨f, steps, hf, hmem, rfl⟩ | ⟨hfields, rfl, rfl⟩ := mem_inMember.1 hmember
      · exact Undeclared.lift [i] [nameText m.1]
          (ih f (List.mem_of_find?_eq_some hf) m.2 inner steps hmem) (.field hi hf)
      · exact .mk .here hi hfields
  choice name alternatives ih d site path h := by
    obtain ⟨m, a, inner, rfl, ha, hmem, rfl⟩ := mem_inChoice.1 h
    exact Undeclared.lift [0] [] ((ih a (List.mem_of_find?_eq_some ha)).2 m.2 inner path hmem)
      (.alternative ha)

/-- What is listed in a part that is read is listed in the whole, from further up. -/
theorem mem_of_reaches {s s' : Shape} {d d' : Outline} {site site' : Site} {path path' : Path}
    (h : s.Reaches d site path s' d') (hmem : (site', path') ∈ s'.unknowns d') :
    (site ++ site', path ++ path') ∈ s.unknowns d := by
  induction h with
  | here => exact hmem
  | option _ ih | wrapper _ ih => exact mem_named.2 ⟨_, ih hmem, rfl⟩
  | item hi _ ih | entry hi _ ih =>
    exact mem_inTurn.2 ⟨_, _, _, hi, mem_named.2 ⟨_, ih hmem, rfl⟩, rfl⟩
  | part hs hd _ ih =>
    rw [Shape.unknowns, partsUnknowns_eq_map]
    exact mem_inParts.2 ⟨_, _, _, _, _, hs, hd, ih hmem, rfl, rfl⟩
  | position hf hd _ ih =>
    rw [unknowns_positions]
    exact mem_inParts.2 ⟨_, _, _, _, _, hf, hd, ih hmem, rfl, rfl⟩
  | field hi hf _ ih =>
    exact mem_inTurn.2 ⟨_, _, _, hi, mem_inMember.2 (.inl ⟨_, _, hf, ih hmem, rfl⟩), rfl⟩
  | alternative ha _ ih => exact mem_inChoice.2 ⟨_, _, _, rfl, ha, ih hmem, rfl⟩

/-- What is listed below a part that is read is listed in the part. -/
theorem mem_below_reaches {s s' : Shape} {d d' : Outline} {before inner : Site} {steps path : Path}
    (h : s.Reaches d before steps s' d') (hmem : (before ++ inner, path) ∈ s.unknowns d) :
    ∃ path', (inner, path') ∈ s'.unknowns d' := by
  induction h generalizing path with
  | here => exact ⟨path, hmem⟩
  | option _ ih | wrapper _ ih =>
    obtain ⟨_, hpart, _⟩ := mem_named.1 hmem
    exact ih hpart
  | item hi _ ih | entry hi _ ih =>
    obtain ⟨_, _, _, hi', hnamed, hsite⟩ := mem_inTurn.1 hmem
    obtain ⟨rfl, rfl⟩ := List.cons.inj hsite
    obtain rfl := Option.some.inj (hi.symm.trans hi')
    obtain ⟨_, hpart, _⟩ := mem_named.1 hnamed
    exact ih hpart
  | part hs hd _ ih =>
    rw [Shape.unknowns, partsUnknowns_eq_map] at hmem
    obtain ⟨_, _, _, _, _, hs', hd', hpart, hsite, _⟩ := mem_inParts.1 hmem
    obtain ⟨rfl, rfl⟩ := List.cons.inj hsite
    obtain rfl := Option.some.inj (hs.symm.trans hs')
    obtain rfl := Option.some.inj (hd.symm.trans hd')
    exact ih hpart
  | position hf hd _ ih =>
    rw [unknowns_positions] at hmem
    obtain ⟨_, _, _, _, _, hf', hd', hpart, hsite, _⟩ := mem_inParts.1 hmem
    obtain ⟨rfl, rfl⟩ := List.cons.inj hsite
    obtain rfl := Option.some.inj (hf.symm.trans hf')
    obtain rfl := Option.some.inj (hd.symm.trans hd')
    exact ih hpart
  | field hi hf _ ih =>
    obtain ⟨_, _, _, hi', hmember, hsite⟩ := mem_inTurn.1 hmem
    obtain ⟨rfl, rfl⟩ := List.cons.inj hsite
    obtain rfl := Option.some.inj (hi.symm.trans hi')
    rw [inMember_declared hf] at hmember
    obtain ⟨_, hpart, _⟩ := mem_named.1 hmember
    exact ih hpart
  | alternative ha _ ih =>
    obtain ⟨_, _, _, hd, ha', hpart, hsite⟩ := mem_inChoice.1 hmem
    cases hd
    obtain ⟨_, rfl⟩ := List.cons.inj hsite
    obtain rfl := Option.some.inj (ha.symm.trans ha')
    exact ih hpart

end UndeclaredLemmas

open UndeclaredLemmas

/-- What is listed are the undeclared members. -/
theorem mem_unknowns_iff {s : Shape} {d : Outline} {site : Site} {path : Path} :
    (site, path) ∈ s.unknowns d ↔ s.Undeclared d site path := by
  constructor
  · exact undeclared_inherited.holds s d site path
  · rintro ⟨hrecord, hm, hfields⟩
    exact mem_of_reaches hrecord
      (mem_inTurn.2 ⟨_, _, _, hm, mem_inMember.2 (.inr ⟨hfields, rfl, rfl⟩), rfl⟩)

/-- A member stands inside of an object, so it is not the part itself. -/
theorem root_not_listed {s : Shape} {d : Outline} {path : Path} : ([], path) ∉ s.unknowns d := by
  intro hmem
  generalize hsite : ([] : Site) = site at hmem
  obtain ⟨_, _, _⟩ := mem_unknowns_iff.1 hmem
  exact absurd hsite.symm (List.append_ne_nil_of_right_ne_nil _ (List.cons_ne_nil _ _))

/-- Values of any kind, entries of tables and declared fields are never listed. -/
theorem spared (s : Shape) (d : Outline) : s.Spared d where
  untyped hreach inner path hundeclared := by
    obtain ⟨path', hmem⟩ := mem_below_reaches hreach (mem_unknowns_iff.2 hundeclared)
    cases hmem
  entry hreach i path hundeclared := by
    obtain ⟨path', hmem⟩ := mem_below_reaches hreach (mem_unknowns_iff.2 hundeclared)
    obtain ⟨_, m, _, _, hnamed, hsite⟩ := mem_inTurn.1 hmem
    obtain ⟨_, rfl⟩ := List.cons.inj hsite
    obtain ⟨_, hroot, _⟩ := mem_named.1 hnamed
    exact root_not_listed hroot
  field hreach hi hdeclared path hundeclared := by
    obtain ⟨path', hmem⟩ := mem_below_reaches hreach (mem_unknowns_iff.2 hundeclared)
    obtain ⟨_, m, _, hi', hmember, hsite⟩ := mem_inTurn.1 hmem
    obtain ⟨rfl, rfl⟩ := List.cons.inj hsite
    obtain rfl := Option.some.inj (hi.symm.trans hi')
    obtain ⟨f, _, _, hroot, _⟩ | ⟨hfields, _⟩ := mem_inMember.1 hmember
    · exact root_not_listed hroot
    · obtain ⟨f, hf, hname⟩ := hdeclared
      exact hfields f hf hname

end FunctionWorker.Json
