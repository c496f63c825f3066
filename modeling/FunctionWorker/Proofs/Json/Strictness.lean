import FunctionWorker.Json.Codec

/-!
# Strict and lenient reading

A reader that watches for members that no record declares reads the same documents as one that does
not, gets the same data and stops at the same faults. So a codec that refuses unknown fields is the
lenient one with a filter behind it.

Results:
1. `elements_mapPart`, `members_mapPart`, `readParts_mapPart`: what is made of each part can as well
   be made of it once the container is read.
2. `reader_forgetful`: a reader that does not watch is one that watches and forgets what it has
   seen.
3. `reader_of_fieldFree`: without declared fields nothing can be seen.
4. `strict_eq`, `decode_strict`: the filter, and what follows from it.
-/

namespace FunctionWorker.Json

/-! ## Definitions -/

/-- Makes something else of what is read, and leaves the octets behind it. -/
def mapPart {α β : Type} (f : α → β) (r : Read (α × Bytes)) : Read (β × Bytes) :=
  r.map fun (a, rest) => (f a, rest)

/-- What is read of a part, without the paths of ignored members. -/
def Reading.plain (r : Reading) : Reading := .whole r.datum

/-- What the members of a record have given, without the paths of those that were ignored. -/
def Gathered.plain (g : Gathered) : Gathered := ⟨g.fields, []⟩

/-- The same reader, save that it forgets what it has ignored. -/
def Reader.forgetful (reader : Reader) : Reader :=
  fun depth bs => mapPart Reading.plain (reader depth bs)

def FieldReader.forgetful (f : FieldReader) : FieldReader := { f with reader := f.reader.forgetful }

def AlternativeReader.forgetful (a : AlternativeReader) : AlternativeReader :=
  { a with reader := a.reader.forgetful }

mutual

/-- The shape declares no fields, neither itself nor in its parts. -/
def Shape.FieldFree : Shape → Prop
  | .option s => s.FieldFree
  | .wrapper s => s.FieldFree
  | .list s => s.FieldFree
  | .table _ s => s.FieldFree
  | .tuple ss => allFieldFree ss
  | .record _ _ => False
  | .choice _ alternatives => alternativesFieldFree alternatives
  | _ => True

def allFieldFree : List Shape → Prop
  | [] => True
  | s :: rest => s.FieldFree ∧ allFieldFree rest

def alternativesFieldFree : List (String × Alternative Shape) → Prop
  | [] => True
  | (_, a) :: rest => alternativeFieldFree a ∧ alternativesFieldFree rest

def alternativeFieldFree : Alternative Shape → Prop
  | .plain => True
  | .value s => s.FieldFree
  | .tuple ss => allFieldFree ss
  | .record _ => False

end

namespace Codec

/-- The codec, save that it lets unknown fields pass. -/
def lenient (c : Codec) : Codec := { c with disallowUnknownFields := false }

/-- The codec, save that it refuses unknown fields. -/
def strict (c : Codec) : Codec := { c with disallowUnknownFields := true }

end Codec

/-- The way to the first member of a document that no record declares. -/
def Shape.unknown? (build : Build) (s : Shape) (payload : Bytes) : Option Path :=
  ((s.read ⟨build.numberText, true⟩ payload).toOption.map (·.ignored)).bind List.head?

/-! ## Parts -/

namespace StrictnessLemmas

section Parts

variable {α β γ : Type} (f : α → β)

theorem mapPart_ok (a : α) (rest : Bytes) : mapPart f (.ok (a, rest)) = .ok (f a, rest) := rfl

theorem mapPart_pure (a : α) (rest : Bytes) : mapPart f (pure (a, rest)) = pure (f a, rest) := rfl

theorem mapPart_error (stop : Stop) : mapPart f (.error stop) = .error stop := rfl

theorem mapPart_ite (c : Prop) [Decidable c] (r s : Read (α × Bytes)) :
    mapPart f (if c then r else s) = if c then mapPart f r else mapPart f s := by
  split <;> rfl

theorem mapPart_bind (r : Read γ) (next : γ → Read (α × Bytes)) :
    mapPart f (r >>= next) = r >>= fun c => mapPart f (next c) := by
  cases r <;> rfl

theorem bind_mapPart (r : Read (α × Bytes)) (next : β × Bytes → Read γ) :
    mapPart f r >>= next = r >>= fun (a, rest) => next (f a, rest) := by
  cases r <;> rfl

theorem settle_mapPart (r : Read (α × Bytes)) : settle (mapPart f r) = mapPart f (settle r) := by
  cases r <;> rfl

theorem closing_mapPart (close : Bytes → Read Bytes) (r : Read (α × Bytes)) :
    closing close (mapPart f r) = mapPart f (closing close r) := by
  unfold closing
  rw [← settle_mapPart]
  cases r with
  | ok part =>
    obtain ⟨a, rest⟩ := part
    simp only [mapPart_ok]
    cases close rest <;> rfl
  | error stop =>
    simp only [mapPart_error]
    cases close stop.rest <;> rfl

theorem elements_mapPart (item : Bytes → Read (α × Bytes)) (fuel : Nat) (first : Bool)
    (bs : Bytes) :
    elements (fun bs => mapPart f (item bs)) fuel first bs =
      mapPart (List.map f) (elements item fuel first bs) := by
  induction fuel generalizing first bs with
  | zero => rfl
  | succ fuel ih =>
    rw [elements, elements, mapPart_bind]
    refine bind_congr fun (more, rest) => ?_
    cases more with
    | false => rfl
    | true => simp only [if_true, ih, mapPart_bind, bind_mapPart, mapPart_pure, List.map_cons]

theorem members_mapPart {κ : Type} (name : Bytes → Read (κ × Bytes))
    (item : κ → Bytes → Read (α × Bytes)) (fuel : Nat) (first : Bool) (bs : Bytes) :
    members name (fun k bs => mapPart f (item k bs)) fuel first bs =
      mapPart (List.map fun m => (m.1, f m.2)) (members name item fuel first bs) := by
  induction fuel generalizing first bs with
  | zero => rfl
  | succ fuel ih =>
    rw [members, members, mapPart_bind]
    refine bind_congr fun (more, rest) => ?_
    cases more with
    | false => rfl
    | true => simp only [if_true, ih, mapPart_bind, bind_mapPart, mapPart_pure, List.map_cons]

end Parts

/-- The parts of a tuple or a record, some of which may be filled up. -/
theorem readParts_mapPart (wanted : Wanted)
    (parts : List (Absence × (Bytes → Read (Reading × Bytes)))) (index : Nat) (bs : Bytes) :
    readParts wanted (parts.map fun part => (part.1, fun bs => mapPart Reading.plain (part.2 bs)))
        index bs =
      mapPart (List.map Reading.plain) (readParts wanted parts index bs) := by
  induction parts generalizing index bs with
  | nil => rfl
  | cons part parts ih =>
    rw [List.map_cons, readParts, readParts, mapPart_bind]
    refine bind_congr fun (more, rest) => ?_
    cases more with
    | true => simp only [if_true, ih, mapPart_bind, bind_mapPart, mapPart_pure, List.map_cons]
    | false =>
      simp only [Bool.false_eq_true, if_false]
      cases part.1 with
      | filled d =>
        simp only [ih, mapPart_bind, bind_mapPart, mapPart_pure, List.map_cons]
        rfl
      | required => rfl
      | optional => rfl

/-! ## Readers -/

theorem ignoredFrom_plain (index : Nat) (rs : List Reading) :
    ignoredFrom index (rs.map Reading.plain) = [] := by
  induction rs generalizing index with
  | nil => rfl
  | cons r rest ih =>
    rw [List.map_cons, ignoredFrom, ih]
    rfl

theorem datum_plain (rs : List Reading) :
    (rs.map Reading.plain).map (·.datum) = rs.map (·.datum) := by
  rw [List.map_map]
  rfl

/-- A scalar has no members. -/
theorem readScalar_forgetful (keepText : Bool) (accept : Found → Except Fault Datum) :
    (readScalar keepText accept).forgetful = readScalar keepText accept := by
  funext depth bs
  unfold Reader.forgetful readScalar
  rw [← settle_mapPart, mapPart_bind]
  congr 1
  refine bind_congr fun (found, rest) => ?_
  dsimp only
  cases accept found <;> rfl

theorem mismatch_plain (keepText : Bool) (wanted : String) (depth : Nat) (bs : Bytes) :
    mapPart Reading.plain (mismatch keepText wanted depth bs) = mismatch keepText wanted depth bs :=
  congrFun (congrFun (readScalar_forgetful keepText _) depth) bs

theorem readOption_forgetful (inner : Reader) :
    readOption inner.forgetful = (readOption inner).forgetful := by
  funext depth bs
  simp only [Reader.forgetful, readOption]
  split
  · cases word ullWord _ <;> rfl
  · cases inner depth (skipBlanks bs) <;> rfl

theorem readWrapper_forgetful (inner : Reader) :
    readWrapper inner.forgetful = (readWrapper inner).forgetful := by
  funext depth bs
  simp only [Reader.forgetful, readWrapper]
  cases inner depth bs <;> rfl

theorem readList_forgetful (keepText : Bool) (inner : Reader) :
    readList keepText inner.forgetful = (readList keepText inner).forgetful := by
  funext depth bs
  rw [Reader.forgetful, readList, readList, mapPart_ite, mismatch_plain, mapPart_bind]
  congr 1
  refine bind_congr fun (depth, body) => ?_
  have helements : elements (inner.forgetful depth) (body.length + 1) true body =
      mapPart (List.map Reading.plain) (elements (inner depth) (body.length + 1) true body) :=
    elements_mapPart Reading.plain (inner depth) (body.length + 1) true body
  simp only [helements, closing_mapPart, bind_mapPart, mapPart_bind, mapPart_pure,
    ignoredFrom_plain, datum_plain, Reading.plain, Reading.whole]

theorem readTable_forgetful (keepText : Bool) (key : KeyShape) (inner : Reader) :
    readTable keepText key inner.forgetful = (readTable keepText key inner).forgetful := by
  funext depth bs
  rw [Reader.forgetful, readTable, readTable, mapPart_ite, mismatch_plain, mapPart_bind]
  congr 1
  refine bind_congr fun (depth, body) => ?_
  have hmembers :
      members (readKey key) (fun _ => inner.forgetful depth) (body.length + 1) true body =
        mapPart (List.map fun m => (m.1, m.2.plain))
          (members (readKey key) (fun _ => inner depth) (body.length + 1) true body) :=
    members_mapPart Reading.plain _ (fun _ => inner depth) (body.length + 1) true body
  simp only [hmembers, closing_mapPart, bind_mapPart, mapPart_bind, mapPart_pure]
  refine bind_congr fun (entries, rest) => ?_
  have hignored : (entries.map fun m => (m.1, m.2.plain)).flatMap
      (fun m => (m.2.under m.1.2).ignored) = [] := by
    rw [List.flatMap_map, List.flatMap_eq_nil_iff]
    exact fun _ _ => rfl
  rw [hignored, List.map_map]
  rfl

theorem readSequence_forgetful (wanted : Wanted) (parts : List (Absence × Reader))
    (build : List Datum → Datum) :
    readSequence wanted (parts.map fun part => (part.1, part.2.forgetful)) build =
      (readSequence wanted parts build).forgetful := by
  funext depth bs
  rw [Reader.forgetful, readSequence, readSequence, mapPart_bind]
  refine bind_congr fun (depth, body) => ?_
  have hparts : readParts wanted
      ((parts.map fun part => (part.1, part.2.forgetful)).map fun part => (part.1, part.2 depth))
        0 body =
      mapPart (List.map Reading.plain)
        (readParts wanted (parts.map fun part => (part.1, part.2 depth)) 0 body) := by
    rw [← readParts_mapPart, List.map_map, List.map_map]
    rfl
  simp only [hparts, closing_mapPart, bind_mapPart, mapPart_bind, mapPart_pure,
    ignoredFrom_plain, datum_plain, Reading.plain, Reading.whole]

theorem readTuple_forgetful (keepText : Bool) (wanted : Wanted) (parts : List Reader)
    (build : List Datum → Datum) :
    readTuple keepText wanted (parts.map Reader.forgetful) build =
      (readTuple keepText wanted parts build).forgetful := by
  funext depth bs
  have hsequence := readSequence_forgetful wanted (parts.map fun p => (.required, p)) build
  rw [List.map_map] at hsequence
  rw [Reader.forgetful, readTuple, readTuple, mapPart_ite, mismatch_plain, List.map_map]
  congr 1
  exact congrFun (congrFun hsequence depth) bs

/-! ### Records -/

theorem find?_forgetful (fields : List FieldReader) (name : String) :
    (fields.map FieldReader.forgetful).find? (fun f => f.name = name) =
      (fields.find? fun f => f.name = name).map FieldReader.forgetful := by
  rw [List.find?_map]
  rfl

theorem field_forgetful (f : FieldReader) (depth : Nat) (bs : Bytes) :
    f.forgetful.reader depth bs = mapPart Reading.plain (f.reader depth bs) := rfl

/-- An ignored member is passed either way; the paths are the only trace of the watch. -/
theorem readMembers_forgetful (fields : List FieldReader) (depth fuel : Nat) (first : Bool)
    (seen : Gathered) (bs : Bytes) :
    readMembers false (fields.map FieldReader.forgetful) depth fuel first seen.plain bs =
      mapPart Gathered.plain (readMembers true fields depth fuel first seen bs) := by
  induction fuel generalizing first seen bs with
  | zero => rfl
  | succ fuel ih =>
    rw [readMembers, readMembers, mapPart_bind]
    refine bind_congr fun (more, rest) => ?_
    cases more with
    | false => rfl
    | true =>
      simp only [Bool.not_true, Bool.false_eq_true, if_false, mapPart_bind, find?_forgetful]
      refine bind_congr fun (name, rest) => ?_
      dsimp only
      cases fields.find? fun f => f.name = name with
      | none =>
        simp only [Option.map_none, mapPart_bind, ← ih]
        rfl
      | some f =>
        simp only [Option.map_some, mapPart_ite, mapPart_bind, ← ih, field_forgetful, bind_mapPart]
        rfl

theorem fillFields_forgetful (seen : List (String × Datum)) (fields : List FieldReader) :
    fillFields seen (fields.map FieldReader.forgetful) = fillFields seen fields := by
  induction fields with
  | nil => rfl
  | cons f rest ih =>
    rw [List.map_cons, fillFields, fillFields, ih]
    rfl

theorem readObject_forgetful (fields : List FieldReader) (build : List (String × Datum) → Datum) :
    readObject false (fields.map FieldReader.forgetful) build =
      (readObject true fields build).forgetful := by
  funext depth bs
  rw [Reader.forgetful, readObject, readObject, mapPart_bind]
  refine bind_congr fun (depth, body) => ?_
  have hmembers : readMembers false (fields.map FieldReader.forgetful) depth (body.length + 1) true
      ⟨[], []⟩ body = mapPart Gathered.plain
        (readMembers true fields depth (body.length + 1) true ⟨[], []⟩ body) :=
    readMembers_forgetful fields depth (body.length + 1) true ⟨[], []⟩ body
  dsimp only
  rw [← closing_mapPart, hmembers, mapPart_bind, bind_mapPart]
  congr 1
  refine bind_congr fun (seen, rest) => ?_
  simp only [Gathered.plain, fillFields_forgetful]
  cases fillFields seen.fields fields <;> rfl

theorem readRecord_forgetful (keepText : Bool) (wanted : Wanted) (fields : List FieldReader)
    (build : List (String × Datum) → Datum) :
    readRecord ⟨keepText, false⟩ wanted (fields.map FieldReader.forgetful) build =
      (readRecord ⟨keepText, true⟩ wanted fields build).forgetful := by
  funext depth bs
  have hobject := readObject_forgetful fields build
  have hsequence := readSequence_forgetful wanted (fields.map fun f => (f.absence, f.reader))
    (fun ds => build ((fields.map (·.name)).zip ds))
  rw [List.map_map] at hsequence
  rw [Reader.forgetful, readRecord, readRecord, mapPart_ite, mapPart_ite, mismatch_plain,
    List.map_map, List.map_map]
  congr 1
  · exact congrFun (congrFun hobject depth) bs
  · congr 1
    exact congrFun (congrFun hsequence depth) bs

/-! ### Choices -/

theorem alternative_forgetful (a : AlternativeReader) (depth : Nat) (bs : Bytes) :
    a.forgetful.reader depth bs = mapPart Reading.plain (a.reader depth bs) := rfl

theorem readAlternativeName_forgetful (alternatives : List AlternativeReader) (bs : Bytes) :
    readAlternativeName (alternatives.map AlternativeReader.forgetful) bs =
      mapPart AlternativeReader.forgetful (readAlternativeName alternatives bs) := by
  rw [readAlternativeName, readAlternativeName, mapPart_bind]
  refine bind_congr fun (s, rest) => ?_
  have hfind : (alternatives.map AlternativeReader.forgetful).find? (fun a => a.name = s) =
      (alternatives.find? fun a => a.name = s).map AlternativeReader.forgetful := by
    rw [List.find?_map]
    rfl
  have hnames : (alternatives.map AlternativeReader.forgetful).map (·.name) =
      alternatives.map (·.name) := by
    rw [List.map_map]
    rfl
  simp only [hfind, hnames]
  cases alternatives.find? fun a => a.name = s <;> rfl

theorem readChoice_forgetful (alternatives : List AlternativeReader) :
    readChoice (alternatives.map AlternativeReader.forgetful) =
      (readChoice alternatives).forgetful := by
  funext depth bs
  simp only [Reader.forgetful, readChoice]
  cases skipBlanks bs with
  | nil => rfl
  | cons b here =>
    simp only [mapPart_ite, mapPart_bind, readAlternativeName_forgetful, bind_mapPart]
    congr 1
    · -- An object with one member: what comes with the alternative, and the closing brace.
      refine bind_congr fun opened => bind_congr fun name => bind_congr fun a =>
        bind_congr fun rest => ?_
      rw [alternative_forgetful, bind_mapPart]
      refine bind_congr fun (r, behind) => ?_
      dsimp only
      cases skipBlanks behind with
      | nil => rfl
      | cons c after =>
        dsimp only
        split <;> rfl
    · -- A name alone.
      congr 1
      refine bind_congr fun a => ?_
      dsimp only [AlternativeReader.forgetful]
      cases a.1.bare <;> rfl

end StrictnessLemmas

open StrictnessLemmas

/-! ## Shapes -/

section Shapes

variable (keepText : Bool)

mutual

/-- A reader that does not watch for ignored members reads what a watchful one reads, and stops
where that one stops; it only forgets what was ignored. -/
theorem reader_forgetful : ∀ s : Shape,
    s.reader ⟨keepText, false⟩ = (s.reader ⟨keepText, true⟩).forgetful
  | .untyped => by
    funext depth bs
    simp only [Shape.reader, Reader.forgetful, readUntyped]
    cases untypedValue keepText depth bs <;> rfl
  | .unit | .bool | .int _ | .double | .char | .text => by
    simp only [Shape.reader, readScalar_forgetful]
  | .option s => by rw [Shape.reader, Shape.reader, reader_forgetful s, readOption_forgetful]
  | .wrapper s => by rw [Shape.reader, Shape.reader, reader_forgetful s, readWrapper_forgetful]
  | .list s => by rw [Shape.reader, Shape.reader, reader_forgetful s, readList_forgetful]
  | .table key s => by rw [Shape.reader, Shape.reader, reader_forgetful s, readTable_forgetful]
  | .tuple ss => by rw [Shape.reader, Shape.reader, shapeReaders_forgetful ss, readTuple_forgetful]
  | .record name fields => by
    rw [Shape.reader, Shape.reader, fieldReaders_forgetful fields, readRecord_forgetful]
  | .choice name alternatives => by
    rw [Shape.reader, Shape.reader, alternativeReaders_forgetful name alternatives,
      readChoice_forgetful]

theorem shapeReaders_forgetful : ∀ ss : List Shape,
    shapeReaders ⟨keepText, false⟩ ss = (shapeReaders ⟨keepText, true⟩ ss).map Reader.forgetful
  | [] => rfl
  | s :: rest => by
    rw [shapeReaders, shapeReaders, reader_forgetful s, shapeReaders_forgetful rest, List.map_cons]

theorem fieldReaders_forgetful : ∀ fields : List (String × Absence × Shape),
    fieldReaders ⟨keepText, false⟩ fields =
      (fieldReaders ⟨keepText, true⟩ fields).map FieldReader.forgetful
  | [] => rfl
  | (name, absence, s) :: rest => by
    rw [fieldReaders, fieldReaders, reader_forgetful s, fieldReaders_forgetful rest]
    rfl

theorem alternativeReaders_forgetful (choice : String) :
    ∀ alternatives : List (String × Alternative Shape),
      alternativeReaders ⟨keepText, false⟩ choice alternatives =
        (alternativeReaders ⟨keepText, true⟩ choice alternatives).map AlternativeReader.forgetful
  | [] => rfl
  | (name, a) :: rest => by
    rw [alternativeReaders, alternativeReaders, alternativeReader_forgetful choice name a,
      alternativeReaders_forgetful choice rest, List.map_cons]

theorem alternativeReader_forgetful (choice name : String) : ∀ a : Alternative Shape,
    alternativeReader ⟨keepText, false⟩ choice name a =
      (alternativeReader ⟨keepText, true⟩ choice name a).forgetful
  | .plain => by
    simp only [alternativeReader, AlternativeReader.forgetful]
    congr 1
    funext depth bs
    rw [Reader.forgetful]
    cases readScalar keepText acceptUnit depth bs <;> rfl
  | .value s => by
    simp only [alternativeReader, AlternativeReader.forgetful, reader_forgetful s]
    congr 1
    funext depth bs
    simp only [Reader.forgetful]
    cases s.reader ⟨keepText, true⟩ depth bs <;> rfl
  | .tuple ss => by
    simp only [alternativeReader, AlternativeReader.forgetful, shapeReaders_forgetful ss,
      readTuple_forgetful]
  | .record fields => by
    simp only [alternativeReader, AlternativeReader.forgetful, fieldReaders_forgetful fields,
      readRecord_forgetful]

end

mutual

/-- Only records ask whether to watch. -/
theorem reader_of_fieldFree : ∀ s : Shape, s.FieldFree →
    s.reader ⟨keepText, true⟩ = s.reader ⟨keepText, false⟩
  | .untyped, _ | .unit, _ | .bool, _ | .int _, _ | .double, _ | .char, _ | .text, _ => by
    simp only [Shape.reader]
  | .option s, h | .wrapper s, h | .list s, h | .table _ s, h => by
    simp only [Shape.FieldFree] at h
    simp only [Shape.reader, reader_of_fieldFree s h]
  | .tuple ss, h => by
    simp only [Shape.FieldFree] at h
    simp only [Shape.reader, shapeReaders_of_fieldFree ss h]
  | .record _ _, h => by
    simp only [Shape.FieldFree] at h
  | .choice name alternatives, h => by
    simp only [Shape.FieldFree] at h
    simp only [Shape.reader, alternativeReaders_of_fieldFree name alternatives h]

theorem shapeReaders_of_fieldFree : ∀ ss : List Shape, allFieldFree ss →
    shapeReaders ⟨keepText, true⟩ ss = shapeReaders ⟨keepText, false⟩ ss
  | [], _ => rfl
  | s :: rest, h => by
    simp only [allFieldFree] at h
    rw [shapeReaders, shapeReaders, reader_of_fieldFree s h.1, shapeReaders_of_fieldFree rest h.2]

theorem alternativeReaders_of_fieldFree (choice : String) :
    ∀ alternatives : List (String × Alternative Shape), alternativesFieldFree alternatives →
      alternativeReaders ⟨keepText, true⟩ choice alternatives =
        alternativeReaders ⟨keepText, false⟩ choice alternatives
  | [], _ => rfl
  | (name, a) :: rest, h => by
    simp only [alternativesFieldFree] at h
    rw [alternativeReaders, alternativeReaders, alternativeReader_of_fieldFree choice name a h.1,
      alternativeReaders_of_fieldFree choice rest h.2]

theorem alternativeReader_of_fieldFree (choice name : String) : ∀ a : Alternative Shape,
    alternativeFieldFree a →
      alternativeReader ⟨keepText, true⟩ choice name a =
        alternativeReader ⟨keepText, false⟩ choice name a
  | .plain, _ => by simp only [alternativeReader]
  | .value s, h => by
    simp only [alternativeFieldFree] at h
    simp only [alternativeReader, reader_of_fieldFree s h]
  | .tuple ss, h => by
    simp only [alternativeFieldFree] at h
    simp only [alternativeReader, shapeReaders_of_fieldFree ss h]
  | .record _, h => by
    simp only [alternativeFieldFree] at h

end

end Shapes

/-! ## Documents -/

section Documents

variable (build : Build) (c : Codec) (s : Shape) (payload : Bytes)

/-- Without a watch a whole document is read to the same datum, or to the same report. -/
theorem read_unwatched (keepText : Bool) :
    s.read ⟨keepText, false⟩ payload = (s.read ⟨keepText, true⟩ payload).map Reading.plain := by
  simp only [Shape.read, reader_forgetful, Reader.forgetful, bind_mapPart]
  cases s.reader ⟨keepText, true⟩ maxDepth payload with
  | error stop => rfl
  | ok part =>
    simp only [bind, Except.bind]
    cases atEnd part.2 <;> rfl

/-- Refusing unknown fields is a filter behind lenient decoding: the first unknown field is reported
where the document is right otherwise. -/
theorem strict_eq : c.strict.decode build s payload =
    (c.lenient.decode build s payload).bind fun d =>
      match s.unknown? build payload with
      | none => .ok d
      | some path => .error (.of Failure.inputError (Codec.unknownField path)) := by
  have hstrict : c.strict.decode build s payload =
      Codec.decodeStrict ⟨build.numberText, true⟩ s payload := rfl
  have hlenient : c.lenient.decode build s payload =
      Codec.decodeLenient ⟨build.numberText, false⟩ s payload := rfl
  rw [hstrict, hlenient, Codec.decodeStrict_eq, Codec.decodeLenient, read_unwatched, Shape.unknown?]
  cases s.read ⟨build.numberText, true⟩ payload with
  | error report => rfl
  | ok reading =>
    obtain ⟨datum, ignored⟩ := reading
    cases ignored <;> rfl

/-- A member that the record does not declare. -/
example : (Shape.record "Item" [Shape.field "a" .unit]).unknown? ⟨false⟩
    (Bytes.ofText "\x7b\"a\":null,\"b\":2\x7d") = some ["b"] := by decide

theorem unknown?_of_fieldFree (h : s.FieldFree) : s.unknown? build payload = none := by
  have hread : s.read ⟨build.numberText, true⟩ payload =
      (s.read ⟨build.numberText, true⟩ payload).map Reading.plain := by
    rw [← read_unwatched]
    simp only [Shape.read, reader_of_fieldFree build.numberText s h]
  rw [Shape.unknown?, hread]
  cases s.read ⟨build.numberText, true⟩ payload <;> rfl

end Documents

/-- A strict codec fails where the lenient one fails, and with the same report. Where the lenient
one gives a datum, the strict one gives the same or refuses an unknown field. They differ only on
types with declared fields. All failures are input errors that do not end the process and have no
stack. -/
theorem decode_strict (build : Build) (c : Codec) (s : Shape) (payload : Bytes) :
    (∀ e, c.lenient.decode build s payload = .error e →
      c.strict.decode build s payload = .error e) ∧
    (∀ d, c.lenient.decode build s payload = .ok d →
      c.strict.decode build s payload = .ok d ∨ ∃ field, c.strict.decode build s payload =
        .error (.of "Runtime.InputError" ("unknown field " ++ Text.quoted field))) ∧
    (s.FieldFree → c.strict.decode build s payload = c.lenient.decode build s payload) ∧
    ∀ e, c.decode build s payload = .error e →
      e.kind = "Runtime.InputError" ∧ e.shouldExit = false ∧ e.stackTrace = none := by
  rw [strict_eq]
  refine ⟨?_, ?_, ?_, ?_⟩
  · intro e h
    rw [h]
    rfl
  · intro d h
    rw [h]
    cases s.unknown? build payload with
    | none => exact Or.inl rfl
    | some path => exact Or.inr ⟨".".intercalate path, rfl⟩
  · intro h
    rw [unknown?_of_fieldFree build s payload h]
    cases c.lenient.decode build s payload <;> rfl
  · intro e h
    obtain ⟨message, rfl⟩ := Codec.decode_eq_error h
    exact ⟨rfl, rfl, rfl⟩

end FunctionWorker.Json
