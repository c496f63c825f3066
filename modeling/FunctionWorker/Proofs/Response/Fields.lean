import Mathlib.Data.Bool.AllAny
import Mathlib.Data.List.Induction
import FunctionWorker.Proofs.Json.Members
import FunctionWorker.Response.Prelude

/-!
# The header fields of a prelude

Calls add values to fields under names in any spelling. The table of a prelude keeps the values of
each field together, under its name in lowercase, and leaves cookies to a list of their own.

Results:
1. `name?_normal`: the normal form of a name is a name in normal form.
2. `addHeader_wellFormed`, `addHeader_values`, `addHeader_cookies`: what a call does.
3. `tells_build`, `build_eq`: what a prelude says after any calls, and that the body is left alone.
-/

namespace FunctionWorker

open Json (Ascending member?)

/-! ## Definitions -/

namespace Prelude

/-- What holds of the table of a prelude at any time. -/
structure WellFormed (p : Prelude) : Prop where
  ascending : Ascending p.headers
  normal : ∀ h ∈ p.headers, Header.name? h.1 = some h.1
  notCookie : ∀ h ∈ p.headers, h.1 ≠ cookieName
  filled : ∀ h ∈ p.headers, h.2 ≠ []

end Prelude

/-- A call that makes the head of a streamed answer. -/
inductive HeadCall where
  | status (code : UInt16)
  | header (name value : String)
  | cookie (text : String)
  deriving DecidableEq, Repr

namespace HeadCall

def apply (r : StreamingResponse) : HeadCall → StreamingResponse
  | .status code => r.status code.toNat
  | .header name value => r.header name value
  | .cookie text => r.cookie text

/-- The answer that calls make of a body. -/
def build (calls : List HeadCall) (body : List Signal) : StreamingResponse :=
  calls.foldl apply (.ofSignals body)

/-- The status that a call sets. -/
def status? : HeadCall → Option Nat
  | .status code => some code.toNat
  | _ => none

/-- The field that a call adds a value to, and the value. Cookies are not kept as a field. -/
def field? : HeadCall → Option (String × String)
  | .header name value =>
    match Header.name? name with
    | some field => if field = Prelude.cookieName then none else some (field, value)
    | none => none
  | _ => none

/-- The cookie that a call adds. -/
def cookie? : HeadCall → Option String
  | .header name value => if Header.name? name = some Prelude.cookieName then some value else none
  | .cookie text => some text
  | .status _ => none

/-- The status that is set last, or the one of a good answer. -/
def statusOf (calls : List HeadCall) : Nat := (calls.filterMap status?).getLast?.getD 200

/-- The names of the fields that get values. -/
def fieldsOf (calls : List HeadCall) : List String := (calls.filterMap field?).map (·.1)

/-- The values that a field gets, in the order of the calls. -/
def valuesOf (field : String) (calls : List HeadCall) : List String :=
  ((calls.filterMap field?).filter fun f => f.1 = field).map (·.2)

/-- The cookies, in the order of the calls. -/
def cookiesOf (calls : List HeadCall) : List String := calls.filterMap cookie?

/-- A prelude says what the calls have said. -/
structure Tells (calls : List HeadCall) (p : Prelude) : Prop where
  wellFormed : p.WellFormed
  status : p.status = statusOf calls
  values : ∀ field, p.values field = valuesOf field calls
  cookies : p.cookies = cookiesOf calls

end HeadCall

/-! ## Names -/

namespace FieldsLemmas

theorem isNameChar_low {c : Char} (h : Header.isNameChar c = true) : c.toNat < 128 := by
  simp only [Header.isNameChar, Bool.or_eq_true, List.contains_iff_mem] at h
  rcases h with h | h
  · change ((decide (65 ≤ c.toNat ∧ c.toNat ≤ 90) ||
      (decide (97 ≤ c.toNat) && decide (c.toNat ≤ 122))) ||
        (decide (48 ≤ c.toNat) && decide (c.toNat ≤ 57))) = true at h
    simp only [Bool.or_eq_true, Bool.and_eq_true, decide_eq_true_eq] at h
    omega
  · have hall : ∀ x ∈ "!#$%&'*+-.^_`|~".toList, x.toNat < 128 :=
      List.all_iff_forall_prop.1 (by decide)
    exact hall c h

/-- The characters of names stay such in lowercase, and then they are in lowercase. -/
theorem isNameChar_toLower {c : Char} (h : Header.isNameChar c = true) :
    Header.isNameChar c.toLower = true ∧ c.toLower.toLower = c.toLower := by
  have hall : ∀ n : Fin 128, Header.isNameChar (Char.ofNat n) = true →
      Header.isNameChar (Char.ofNat n).toLower = true ∧
        (Char.ofNat n).toLower.toLower = (Char.ofNat n).toLower := by decide +kernel
  have hc := hall ⟨c.toNat, isNameChar_low h⟩
  rw [Char.ofNat_toNat] at hc
  exact hc h

end FieldsLemmas

open FieldsLemmas

/-- The normal form of a name is a name that is in normal form already. -/
theorem Header.name?_normal {s name : String} (h : name? s = some name) : name? name = some name := by
  unfold name? at h
  split at h
  · next hs =>
    cases h
    simp only [isName, Bool.and_eq_true, Bool.not_eq_true', List.isEmpty_eq_false_iff,
      decide_eq_true_eq, List.all_eq_true] at hs
    obtain ⟨⟨hne, hlength⟩, hchars⟩ := hs
    have hname : isName (lowercase s) = true := by
      simp only [isName, lowercase, String.toList_ofList, Bool.and_eq_true, Bool.not_eq_true',
        List.isEmpty_eq_false_iff, decide_eq_true_eq, List.all_eq_true, List.length_map,
        List.mem_map]
      refine ⟨⟨?_, hlength⟩, ?_⟩
      · exact fun hnil => hne (List.map_eq_nil_iff.1 hnil)
      · rintro _ ⟨c, hc, rfl⟩
        exact (isNameChar_toLower (hchars c hc)).1
    have hagain : lowercase (lowercase s) = lowercase s := by
      simp only [lowercase, String.toList_ofList, List.map_map]
      congr 1
      exact List.map_congr_left fun c hc => (isNameChar_toLower (hchars c hc)).2
    rw [name?, if_pos hname, hagain]
  · cases h

/-! ## Preludes -/

namespace Prelude

variable {p : Prelude} {name field value : String}

theorem addHeader_none (h : Header.name? name = none) : p.addHeader name value = p := by
  rw [addHeader, h]

theorem addHeader_cookie (h : Header.name? name = some cookieName) :
    p.addHeader name value = p.addCookie value := by
  rw [addHeader, h]
  exact if_pos rfl

theorem addHeader_field (h : Header.name? name = some field) (hne : field ≠ cookieName) :
    p.addHeader name value =
      { p with headers := Json.setMember field (p.values field ++ [value]) p.headers } := by
  rw [addHeader, h]
  exact if_neg hne

theorem start_wellFormed : start.WellFormed where
  ascending := List.Pairwise.nil
  normal := fun _ h => absurd h List.not_mem_nil
  notCookie := fun _ h => absurd h List.not_mem_nil
  filled := fun _ h => absurd h List.not_mem_nil

/-- Only the header fields matter for the form of a prelude. -/
theorem WellFormed.of_headers {q : Prelude} (h : p.WellFormed) (heq : q.headers = p.headers) :
    q.WellFormed where
  ascending := heq ▸ h.ascending
  normal := heq ▸ h.normal
  notCookie := heq ▸ h.notCookie
  filled := heq ▸ h.filled

theorem addHeader_wellFormed (h : p.WellFormed) (name value : String) :
    (p.addHeader name value).WellFormed := by
  cases hname : Header.name? name with
  | none => rwa [addHeader_none hname]
  | some field =>
    by_cases hcookie : field = cookieName
    · rw [hcookie] at hname
      rw [addHeader_cookie hname]
      exact h.of_headers rfl
    · rw [addHeader_field hname hcookie]
      constructor
      · exact Json.ascending_setMember h.ascending _ _
      · intro m hm
        rcases Json.mem_setMember hm with rfl | hm
        · exact Header.name?_normal hname
        · exact h.normal m hm
      · intro m hm
        rcases Json.mem_setMember hm with rfl | hm
        · exact hcookie
        · exact h.notCookie m hm
      · intro m hm
        rcases Json.mem_setMember hm with rfl | hm
        · exact List.append_ne_nil_of_right_ne_nil _ (List.cons_ne_nil _ _)
        · exact h.filled m hm

/-- A field has an entry just when it has a value. -/
theorem WellFormed.member? (h : p.WellFormed) (field : String) :
    member? field p.headers = if p.values field = [] then none else some (p.values field) := by
  unfold values
  cases hfound : Json.member? field p.headers with
  | none => rfl
  | some vs => exact (if_neg (h.filled _ (Json.mem_of_member? hfound))).symm

end Prelude

/-! ## Calls -/

namespace HeadCall

variable (call : HeadCall) (r : StreamingResponse)

/-! ### One call -/

theorem apply_wellFormed (h : r.head.WellFormed) : (call.apply r).head.WellFormed := by
  cases call with
  | status code => exact h.of_headers rfl
  | header name value => exact Prelude.addHeader_wellFormed h name value
  | cookie text => exact h.of_headers rfl

theorem apply_status : (call.apply r).head.status = call.status?.getD r.head.status := by
  cases call with
  | status code => rfl
  | header name value =>
    change (r.head.addHeader name value).status = r.head.status
    cases hname : Header.name? name with
    | none => rw [Prelude.addHeader_none hname]
    | some field =>
      by_cases hcookie : field = Prelude.cookieName
      · rw [hcookie] at hname
        rw [Prelude.addHeader_cookie hname]
        rfl
      · rw [Prelude.addHeader_field hname hcookie]
  | cookie text => rfl

/-- A call adds its value to its field and to no other. -/
theorem apply_values (field : String) :
    (call.apply r).head.values field = r.head.values field ++ valuesOf field [call] := by
  cases call with
  | status code => exact (List.append_nil _).symm
  | header name value =>
    change (r.head.addHeader name value).values field = _
    cases hname : Header.name? name with
    | none =>
      rw [Prelude.addHeader_none hname]
      simp [valuesOf, field?, hname]
    | some own =>
      by_cases hcookie : own = Prelude.cookieName
      · rw [hcookie] at hname
        rw [Prelude.addHeader_cookie hname]
        simp [valuesOf, field?, hname, Prelude.addCookie, Prelude.values]
      · rw [Prelude.addHeader_field hname hcookie, Prelude.values, Json.member?_setMember]
        by_cases hown : own = field
        · subst hown
          simp [valuesOf, field?, hname, hcookie]
        · simp [valuesOf, field?, hname, hcookie, hown, Prelude.values]
  | cookie text => exact (List.append_nil _).symm

theorem apply_cookies : (call.apply r).head.cookies = r.head.cookies ++ cookiesOf [call] := by
  cases call with
  | status code => exact (List.append_nil _).symm
  | header name value =>
    change (r.head.addHeader name value).cookies = _
    cases hname : Header.name? name with
    | none =>
      rw [Prelude.addHeader_none hname]
      simp [cookiesOf, cookie?, hname]
    | some own =>
      by_cases hcookie : own = Prelude.cookieName
      · rw [hcookie] at hname
        rw [Prelude.addHeader_cookie hname]
        simp [cookiesOf, cookie?, hname, Prelude.addCookie]
      · rw [Prelude.addHeader_field hname hcookie]
        simp [cookiesOf, cookie?, hname, hcookie]
  | cookie text => rfl

/-! ### All calls -/

theorem statusOf_append (calls : List HeadCall) :
    statusOf (calls ++ [call]) = call.status?.getD (statusOf calls) := by
  unfold statusOf
  rw [List.filterMap_append]
  cases h : call.status? with
  | none => simp [h]
  | some code => simp [h]

theorem valuesOf_append (field : String) (calls : List HeadCall) :
    valuesOf field (calls ++ [call]) = valuesOf field calls ++ valuesOf field [call] := by
  simp only [valuesOf, List.filterMap_append, List.filter_append, List.map_append]

theorem tells_start : Tells [] .start where
  wellFormed := Prelude.start_wellFormed
  status := rfl
  values := fun _ => rfl
  cookies := rfl

/-- One more call is told as well. -/
theorem tells_call {calls : List HeadCall} (h : Tells calls r.head) :
    Tells (calls ++ [call]) (call.apply r).head where
  wellFormed := apply_wellFormed call r h.wellFormed
  status := by rw [apply_status, statusOf_append, h.status]
  values := fun field => by rw [apply_values, valuesOf_append, h.values]
  cookies := by rw [apply_cookies, h.cookies, cookiesOf, cookiesOf, cookiesOf, List.filterMap_append]

/-- After any calls a prelude says just what the calls have said. -/
theorem tells_build (calls : List HeadCall) (body : List Signal) :
    Tells calls (build calls body).head := by
  -- The last call is made last, and the invariant speaks of all calls before it.
  induction calls using List.reverseRec with
  | nil => exact tells_start
  | append_singleton calls call ih =>
    have hstep := tells_call call (build calls body) ih
    rwa [build, List.foldl_append]

/-- Calls make the same head for any body, and leave the body as it is. -/
theorem build_eq (calls : List HeadCall) (body : List Signal) :
    build calls body = ⟨(build calls []).head, body⟩ := by
  induction calls using List.reverseRec with
  | nil => rfl
  | append_singleton calls call ih =>
    simp only [build, List.foldl_append, List.foldl_cons, List.foldl_nil] at ih ⊢
    rw [ih]
    cases call with
    | status _ | header _ _ | cookie _ => rfl

end HeadCall

end FunctionWorker
