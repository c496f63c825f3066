import FunctionWorker.Proofs.Json.Characters
import FunctionWorker.Proofs.Json.RoundTrip
import FunctionWorker.Proofs.Response.Fields
import FunctionWorker.Response.Outgoing

/-!
# Taking a streamed answer apart

A streamed answer is a document, eight zero octets and a body. No document has a zero octet in it,
so the first eight zero octets in a row are the ones behind the document, whatever the body is.

Results:
1. `splitFrame_eq_some_iff`: what it means to cut at the first delimiter.
2. `zero_notMem_document`: the document of a prelude has no zero octet.
3. `decode_document`: what is read of the document of a prelude.
4. `splitFrame_build`: any streamed answer is taken apart into what was put into it.
-/

namespace FunctionWorker

open Bytes
open Json (Value Number Tree Codec Build Style Ascending member?)

/-! ## Definitions -/

/-- The octets that items bring before they end or break off. -/
def dataOf : List Item → Bytes
  | [] => []
  | .error _ :: _ => []
  | .ok bytes :: rest => bytes ++ dataOf rest

/-- The octets that the body of a response brings before it ends or breaks off. -/
def Response.data (r : Response) : Bytes := dataOf (itemsOf r.toSignals)

def Frame.octets : Frame → Bytes
  | .data bytes => bytes
  | .trailers _ => []

/-- Cuts octets at the first place where a delimiter stands: what is in front of it, and what is
behind it. -/
def splitFrame : Bytes → Option (Bytes × Bytes)
  | [] => none
  | b :: rest =>
    if Prelude.delimiter <+: b :: rest then
      some ([], (b :: rest).drop Prelude.delimiter.length)
    else (splitFrame rest).map fun (front, back) => (b :: front, back)

namespace Prelude

/-- The values of each field as one text. -/
def joined (p : Prelude) : List (String × String) :=
  p.headers.map fun h => (h.1, ",".intercalate h.2)

def document (p : Prelude) : Bytes := ofText p.tree.compact

end Prelude

/-- The status in a document. Where numbers keep their text, it is read as a text. -/
def statusValue (keepText : Bool) (status : Nat) : Value :=
  .number (if keepText then (Number.integer status).asNumeral else .integer status)

/-- The header fields in a document. -/
def headerValue (fields : List (String × String)) : Value :=
  .object (fields.map fun f => (f.1, .text f.2))

/-- The cookies in a document. -/
def cookieValue (cookies : List String) : Value := .array (cookies.map .text)

/-- A member that is left out if there is nothing to say. -/
def memberUnless (absent : Prop) [Decidable absent] (name : String) (v : Value) :
    List (String × Value) := if absent then [] else [(name, v)]

namespace HeadCall

/-- The header fields that calls make, with commas between the values of a field. -/
def tableOf (calls : List HeadCall) : List (String × String) :=
  Json.membersOf ((fieldsOf calls).map fun field => (field, ",".intercalate (valuesOf field calls)))

/-- What calls say, as a value with its members in order. -/
def valueOf (keepText : Bool) (calls : List HeadCall) : Value :=
  .object (memberUnless (cookiesOf calls = []) "cookies" (cookieValue (cookiesOf calls)) ++
    memberUnless (tableOf calls = []) "headers" (headerValue (tableOf calls)) ++
      [("statusCode", statusValue keepText (statusOf calls))])

end HeadCall

/-! ## Cutting -/

/-- Octets are cut in front of a delimiter that no other one starts before. -/
theorem splitFrame_eq_some_iff {bytes front back : Bytes} :
    splitFrame bytes = some (front, back) ↔
      bytes = front ++ Prelude.delimiter ++ back ∧
        ∀ n < front.length, ¬ Prelude.delimiter <+: bytes.drop n := by
  induction bytes generalizing front with
  | nil =>
    constructor
    · intro h
      cases h
    · rintro ⟨h, _⟩
      have hlength := congrArg List.length h
      simp [Prelude.delimiter] at hlength
  | cons b rest ih =>
    rw [splitFrame]
    by_cases hhere : Prelude.delimiter <+: b :: rest
    · obtain ⟨tail, htail⟩ := hhere
      rw [if_pos ⟨tail, htail⟩, ← htail, List.drop_left]
      constructor
      · intro h
        cases h
        exact ⟨rfl, fun n hn => absurd hn (Nat.not_lt_zero n)⟩
      · rintro ⟨heq, hfirst⟩
        cases front with
        | nil => rw [List.append_cancel_left heq]
        | cons c front => exact absurd ⟨tail, rfl⟩ (hfirst 0 (Nat.succ_pos _))
    · rw [if_neg hhere]
      constructor
      · intro h
        obtain ⟨⟨front', back'⟩, hrest, heq⟩ := Option.map_eq_some_iff.1 h
        cases heq
        obtain ⟨hbytes, hfirst⟩ := ih.1 hrest
        refine ⟨by rw [hbytes]; rfl, ?_⟩
        rintro (_ | n) hn
        · exact hhere
        · exact hfirst n (Nat.lt_of_succ_lt_succ hn)
      · rintro ⟨heq, hfirst⟩
        cases front with
        | nil => exact absurd ⟨back, heq.symm⟩ hhere
        | cons c front =>
          obtain ⟨rfl, hrest⟩ := List.cons.inj heq
          have hsplit := ih.2 ⟨hrest, fun n hn => hfirst (n + 1) (Nat.succ_lt_succ hn)⟩
          rw [hsplit]
          rfl

/-- What has no zero octet is cut off in front of the first delimiter behind it. -/
theorem splitFrame_append {front : Bytes} (h : 0 ∉ front) (back : Bytes) :
    splitFrame (front ++ Prelude.delimiter ++ back) = some (front, back) := by
  refine splitFrame_eq_some_iff.2 ⟨rfl, ?_⟩
  -- A delimiter that started earlier would start with an octet of the front.
  rintro n hn ⟨tail, htail⟩
  rw [List.append_assoc, List.drop_append_of_le_length (Nat.le_of_lt hn),
    List.drop_eq_getElem_cons hn] at htail
  have hzero : front[n] = 0 := (List.cons.inj htail).1.symm
  exact h (hzero ▸ List.getElem_mem hn)

/-! ## Data -/

theorem dataOf_join {items : List Item} {bytes : Bytes} (h : Response.join items = .ok bytes) :
    dataOf items = bytes := by
  induction items generalizing bytes with
  | nil =>
    cases h
    rfl
  | cons i rest ih =>
    cases i with
    | error e => cases h
    | ok first =>
      simp only [Response.join, bind, Except.bind] at h
      cases hrest : Response.join rest with
      | error e =>
        rw [hrest] at h
        cases h
      | ok more =>
        rw [hrest] at h
        cases h
        rw [dataOf, ih hrest]

/-- A response that can be collected has brought all of its data. -/
theorem Response.data_of_collect {r : Response} {bytes : Bytes} (h : r.collect = .ok bytes) :
    r.data = bytes := by
  obtain ⟨body, type⟩ := r
  cases body with
  | buffered all =>
    cases h
    exact List.append_nil _
  | stream signals => exact dataOf_join h

/-- The frames in which a response is sent carry its data. -/
theorem Response.octets_frames (r : Response) :
    (Outgoing.ofResponse r).frames.flatMap Frame.octets = r.data := by
  have hstream : ∀ signals,
      (Outgoing.streamFrames signals).flatMap Frame.octets = dataOf (itemsOf signals) := by
    intro signals
    fun_induction Outgoing.streamFrames signals with
    | case1 => rfl
    | case2 rest ih => exact ih
    | case3 rest ih => exact ih
    | case4 rest bytes _ ih =>
      rw [List.flatMap_cons, ih]
      rfl
    | case5 e rest => rfl
  obtain ⟨body, type⟩ := r
  cases body with
  | buffered bytes => rfl
  | stream signals => exact hstream signals

/-! ## Documents -/

namespace FrameLemmas

variable {keepText : Bool}

theorem toString_eq (n : Nat) : toString n = Json.integerText n := by
  have hnot : ¬ (n : Int) < 0 := Int.not_lt.2 (Int.natCast_nonneg n)
  rw [Json.integerText, if_neg hnot, List.nil_append, Int.natAbs_natCast]
  rfl

/-- The members of a document as they are written. -/
def written (keepText : Bool) (p : Prelude) : List (String × Value) :=
  ("statusCode", statusValue keepText p.status) ::
    memberUnless (p.joined = []) "headers" (headerValue p.joined) ++
      memberUnless (p.cookies = []) "cookies" (cookieValue p.cookies)

theorem mem_written {p : Prelude} {m : String × Value} (h : m ∈ written keepText p) :
    m = ("statusCode", statusValue keepText p.status) ∨ m = ("headers", headerValue p.joined) ∨
      m = ("cookies", cookieValue p.cookies) := by
  have hmember : ∀ {absent : Prop} [Decidable absent] {name : String} {v : Value},
      m ∈ memberUnless absent name v → m = (name, v) := by
    intro absent _ name v hm
    unfold memberUnless at hm
    split at hm
    · cases hm
    · exact List.mem_singleton.1 hm
  rcases List.mem_append.1 h with h | h
  · rcases List.mem_cons.1 h with h | h
    · exact .inl h
    · exact .inr (.inl (hmember h))
  · exact .inr (.inr (hmember h))

theorem statusValue_tree (status : Nat) :
    (statusValue keepText status).tree = .atom (toString status) := by
  rw [toString_eq]
  cases keepText <;> rfl

theorem headerValue_tree (fields : List (String × String)) :
    (headerValue fields).tree = .object (fields.map fun f => (f.1, .text f.2)) := by
  rw [headerValue, Value.tree, Json.membersTree_eq_map, List.map_map]
  rfl

theorem cookieValue_tree (cookies : List String) :
    (cookieValue cookies).tree = .array (cookies.map .text) := by
  rw [cookieValue, Value.tree, Json.treesOf_eq_map, List.map_map]
  rfl

theorem tree_eq (p : Prelude) : p.tree = (Value.object (written keepText p)).tree := by
  rw [Value.tree, Json.membersTree_eq_map, written, Prelude.tree]
  by_cases hheaders : p.headers = []
  · by_cases hcookies : p.cookies = []
    · simp [memberUnless, Prelude.joined, hheaders, hcookies, statusValue_tree]
    · simp [memberUnless, Prelude.joined, hheaders, hcookies, statusValue_tree, cookieValue_tree]
  · by_cases hcookies : p.cookies = []
    · simp [memberUnless, Prelude.joined, hheaders, hcookies, statusValue_tree, headerValue_tree]
    · simp [memberUnless, Prelude.joined, hheaders, hcookies, statusValue_tree, headerValue_tree,
        cookieValue_tree]

/-! ### Reading -/

theorem statusValue_readsBack {status : Nat} (h : status < 65536) :
    (statusValue keepText status).ReadsBack keepText := by
  have hleast : Json.leastInteger ≤ status := by
    simp only [Json.leastInteger]
    omega
  have hgreatest : (status : Int) ≤ Json.greatestInteger := by
    simp only [Json.greatestInteger]
    omega
  refine ⟨Json.integerText status, .integer status, ?_, rfl, ?_⟩
  · cases keepText <;> rfl
  · exact fun rest hrest => Json.scalar_integerText hleast hgreatest hrest

theorem name_ne_number {p : Prelude} (h : p.WellFormed) {f : String × String}
    (hf : f ∈ p.joined) : f.1 ≠ Json.numeralName := by
  obtain ⟨m, hm, rfl⟩ := List.mem_map.1 hf
  have hnone : Header.name? Json.numeralName = none := by decide +kernel
  intro heq
  have hnormal : Header.name? Json.numeralName = some m.1 := heq ▸ h.normal m hm
  rw [hnone] at hnormal
  cases hnormal

theorem headerValue_readsBack {p : Prelude} (h : p.WellFormed) :
    (headerValue p.joined).ReadsBack keepText := by
  refine Json.membersReadBack_iff.2 ?_
  intro m hm
  obtain ⟨f, hf, rfl⟩ := List.mem_map.1 hm
  exact ⟨by rw [decide_eq_false (name_ne_number h hf), Bool.and_false], trivial⟩

theorem cookieValue_readsBack (cookies : List String) :
    (cookieValue cookies).ReadsBack keepText := by
  refine Json.allReadBack_iff.2 ?_
  intro v hv
  obtain ⟨text, _, rfl⟩ := List.mem_map.1 hv
  exact trivial

theorem written_readsBack {p : Prelude} (h : p.WellFormed) (hstatus : p.status < 65536) :
    (Value.object (written keepText p)).ReadsBack keepText := by
  have hname : ∀ name ∈ ["statusCode", "headers", "cookies"],
      (keepText && decide (name = Json.numeralName)) = false := by
    have hne : ∀ name ∈ ["statusCode", "headers", "cookies"], name ≠ Json.numeralName :=
      List.all_iff_forall_prop.1 (by decide)
    exact fun name hmem => by rw [decide_eq_false (hne name hmem), Bool.and_false]
  refine Json.membersReadBack_iff.2 ?_
  intro m hm
  rcases mem_written hm with rfl | rfl | rfl
  · exact ⟨hname _ (by simp), statusValue_readsBack hstatus⟩
  · exact ⟨hname _ (by simp), headerValue_readsBack h⟩
  · exact ⟨hname _ (by simp), cookieValue_readsBack p.cookies⟩

theorem written_depth (p : Prelude) : (Value.object (written keepText p)).depth ≤ 2 := by
  refine Nat.succ_le_succ (Json.deepestMember_le_iff.2 ?_)
  intro m hm
  rcases mem_written hm with rfl | rfl | rfl
  · exact Nat.zero_le 1
  · refine Nat.succ_le_succ (Json.deepestMember_le_iff.2 ?_)
    intro m hm
    obtain ⟨f, _, rfl⟩ := List.mem_map.1 hm
    exact Nat.le_refl 0
  · refine Nat.succ_le_succ (Json.deepest_le_iff.2 ?_)
    intro v hv
    obtain ⟨text, _, rfl⟩ := List.mem_map.1 hv
    exact Nat.le_refl 0

theorem written_ordered {p : Prelude} (h : p.WellFormed) :
    Json.membersOrdered (written keepText p) := by
  refine Json.membersOrdered_iff.2 ?_
  intro m hm
  rcases mem_written hm with rfl | rfl | rfl
  · exact trivial
  · refine ⟨List.pairwise_map.2 (List.pairwise_map.2 h.ascending), Json.membersOrdered_iff.2 ?_⟩
    intro m hm
    obtain ⟨f, _, rfl⟩ := List.mem_map.1 hm
    exact trivial
  · refine Json.allOrdered_iff.2 ?_
    intro v hv
    obtain ⟨text, _, rfl⟩ := List.mem_map.1 hv
    exact trivial

/-- A reader puts the members of a document in order. -/
theorem written_normal {p : Prelude} (h : p.WellFormed) :
    (Value.object (written keepText p)).normal =
      .object (memberUnless (p.cookies = []) "cookies" (cookieValue p.cookies) ++
        memberUnless (p.joined = []) "headers" (headerValue p.joined) ++
          [("statusCode", statusValue keepText p.status)]) := by
  -- The members are written in the falling order of their names, so each one goes to the front.
  have hheaders : "headers" < "statusCode" := by decide
  have hcookies : "cookies" < "statusCode" := by decide
  have hfirst : "cookies" < "headers" := by decide
  rw [Value.normal, Json.normalMembers_eq_self _ (written_ordered h), written]
  unfold memberUnless
  congr 1
  split
  · split
    · rfl
    · exact Json.setMember_of_lt hcookies
  · split
    · exact Json.setMember_of_lt hheaders
    · change Json.setMember "cookies" (cookieValue p.cookies)
        (Json.setMember "headers" (headerValue p.joined) [("statusCode", _)]) = _
      rw [Json.setMember_of_lt hheaders]
      exact Json.setMember_of_lt hfirst

/-! ### Zero octets -/

/-- A document on one line has no zero character, if its atoms have none. -/
theorem compact_writes : Style.compact.Writes (· ≠ '\x00') where
  signs := List.all_iff_forall_prop.1 (by decide)
  lead := fun _ h => absurd h List.not_mem_nil
  indent := fun _ h => absurd h List.not_mem_nil
  escaped := by
    have hsigns : ∀ d ∈ Json.escapeSigns, d ≠ '\x00' := List.all_iff_forall_prop.1 (by decide)
    intro c d hd
    rcases Json.mem_escapeChar hd with hsign | ⟨rfl, hprintable, _⟩
    · exact hsigns d hsign
    · rintro rfl
      exact absurd hprintable (by decide)

theorem tree_atoms (p : Prelude) : p.tree.AtomsAll (· ≠ '\x00') := by
  -- The status is the only atom; header fields and cookies are texts.
  have hstatus : ∀ c ∈ (toString p.status).toList, c ≠ '\x00' := by
    rintro _ hc rfl
    rw [toString_eq, Json.integerText, if_neg (Int.not_lt.2 (Int.natCast_nonneg _)),
      String.toList_ofList] at hc
    exact absurd (Text.isDigit_digitsOf _ _ hc) (by decide)
  rw [@tree_eq false]
  refine Json.membersAtomsAll_iff.2 ?_
  rw [Json.membersTree_eq_map]
  intro m hm
  obtain ⟨m, hwritten, rfl⟩ := List.mem_map.1 hm
  rcases mem_written hwritten with rfl | rfl | rfl
  · rwa [statusValue_tree]
  · rw [headerValue_tree]
    refine Json.membersAtomsAll_iff.2 ?_
    intro m hm
    obtain ⟨f, _, rfl⟩ := List.mem_map.1 hm
    exact trivial
  · rw [cookieValue_tree]
    refine Json.itemsAtomsAll_iff.2 ?_
    intro t ht
    obtain ⟨text, _, rfl⟩ := List.mem_map.1 ht
    exact trivial

end FrameLemmas

open FrameLemmas

/-- Whatever the names and the values of a prelude are, its document has no zero octet. -/
theorem Prelude.zero_notMem_document (p : Prelude) : 0 ∉ p.document := by
  rw [document, Tree.compact, ofText_eq, String.toList_ofList]
  exact zero_notMem_ofChars (Json.write_all compact_writes (tree_atoms p))

/-- The document of a prelude is read as what the prelude says. -/
theorem Prelude.decode_document {p : Prelude} (h : p.WellFormed) (hstatus : p.status < 65536)
    (build : Build) (c : Codec) :
    c.decode build .untyped p.document = .ok (.untyped (.object
      (memberUnless (p.cookies = []) "cookies" (cookieValue p.cookies) ++
        memberUnless (p.joined = []) "headers" (headerValue p.joined) ++
          [("statusCode", statusValue build.numberText p.status)]))) := by
  have hstyle : Style.compact.IsBlank := ⟨by decide, by decide⟩
  have hdepth : (Value.object (written build.numberText p)).depth ≤ Json.maxDepth :=
    Nat.le_trans (written_depth p) (by decide)
  have hread := Json.decode_write c hstyle (written_readsBack h hstatus) hdepth
  rw [written_normal h, ← tree_eq] at hread
  exact hread

/-! ## Answers -/

namespace HeadCall

theorem mem_fieldsOf {field : String} {calls : List HeadCall} :
    field ∈ fieldsOf calls ↔ valuesOf field calls ≠ [] := by
  simp only [fieldsOf, valuesOf, List.mem_map, ne_eq, List.map_eq_nil_iff, List.filter_eq_nil_iff,
    decide_eq_true_eq, not_forall, Classical.not_not]
  constructor
  · rintro ⟨f, hf, rfl⟩
    exact ⟨f, hf, rfl⟩
  · rintro ⟨f, hf, rfl⟩
    exact ⟨f, hf, rfl⟩

/-- The fields of a prelude are those that the calls have made. -/
theorem joined_eq {calls : List HeadCall} {p : Prelude} (h : Tells calls p) :
    p.joined = tableOf calls := by
  have hascending : Ascending p.joined := List.pairwise_map.2 h.wellFormed.ascending
  refine Json.ascending_ext hascending (Json.ascending_membersOf _) ?_
  intro field
  rw [tableOf, Json.member?_membersOf, Prelude.joined, Json.member?_map, h.wellFormed.member?,
    h.values]
  by_cases hnone : valuesOf field calls = []
  · rw [if_pos hnone, if_neg fun hmem => mem_fieldsOf.1 hmem hnone]
    rfl
  · rw [if_neg hnone, if_pos (mem_fieldsOf.2 hnone)]
    rfl

theorem statusOf_lt (calls : List HeadCall) : statusOf calls < 65536 := by
  unfold statusOf
  cases hlast : (calls.filterMap status?).getLast? with
  | none => exact (by decide : 200 < 65536)
  | some code =>
    obtain ⟨call, _, hcall⟩ := List.mem_filterMap.1 (List.mem_of_getLast? hlast)
    cases call with
    | status code =>
      cases hcall
      exact code.toNat_lt
    | header name value => cases hcall
    | cookie text => cases hcall

end HeadCall

open HeadCall

/-- A streamed answer is cut at its first delimiter into a document that says what the calls have
said, whatever the body is, and the data of the body as they are, however they came in pieces. -/
theorem splitFrame_build (calls : List HeadCall) :
    ∃ document,
      (∀ body, splitFrame (build calls body).encode.data = some (document, dataOf (itemsOf body))) ∧
      ∀ (b : Build) (c : Codec),
        c.decode b .untyped document = .ok (.untyped (valueOf b.numberText calls)) := by
  refine ⟨(build calls []).head.document, ?_, ?_⟩
  · intro body
    have hdata : (build calls body).encode.data =
        (build calls []).head.document ++ Prelude.delimiter ++ dataOf (itemsOf body) := by
      rw [build_eq]
      rfl
    rw [hdata, splitFrame_append (Prelude.zero_notMem_document _)]
  · intro b c
    have htells : Tells calls (build calls []).head := tells_build calls []
    have hstatus : (build calls []).head.status < 65536 := by
      rw [htells.status]
      exact statusOf_lt calls
    rw [Prelude.decode_document htells.wellFormed hstatus, joined_eq htells, htells.cookies,
      htells.status]
    rfl

end FunctionWorker
