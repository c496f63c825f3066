import FunctionWorker.Proofs.Response.Calls
import FunctionWorker.Proofs.Response.Fields

/-!
# Changes of the header fields of a prelude

A change adds a value to a field, gives a field one value in place of all others, or adds a cookie.
Each field is a log of its own: a change matters to the field that it names and to no other, and
cookies are one more such field. What a prelude says of a field is therefore the log of this field
from its last replacement on, wherever changes of other fields stand in between.

Results:
1. `told_apply`, `apply_wellFormed`: what one change does.
2. `told_after`, `after_wellFormed`: what a prelude says after any changes.
3. `after_ext`: a prelude is what it says of its fields.
4. `fields_follow_changes`: the algebra of changes.
-/

namespace FunctionWorker

open Json (Ascending)

/-! ## Definitions -/

/-- The list from its last element with the property on. It is the whole list if there is none. -/
def fromLast {α : Type} (p : α → Bool) : List α → List α
  | [] => []
  | a :: l => if l.any p then fromLast p l else a :: l

/-- A change of the header fields of a prelude. -/
inductive FieldChange where
  | add (name value : String)
  | set (name value : String)
  | cookie (text : String)
  deriving DecidableEq, Repr

namespace FieldChange

def apply (p : Prelude) : FieldChange → Prelude
  | .add name value => p.addHeader name value
  | .set name value => p.setHeader name value
  | .cookie text => p.addCookie text

/-- The field that a change is about. A text that is no name is about no field. -/
def field? : FieldChange → Option String
  | .add name _ => Header.name? name
  | .set name _ => Header.name? name
  | .cookie _ => some Prelude.cookieName

def value : FieldChange → String
  | .add _ value => value
  | .set _ value => value
  | .cookie text => text

/-- Whether the values that the field had are lost. -/
def replaces : FieldChange → Bool
  | .set _ _ => true
  | _ => false

/-- The changes of one field. -/
def about (field : String) (changes : List FieldChange) : List FieldChange :=
  changes.filter fun c => c.field? = some field

/-- The values that a field has after changes: those since the last replacement. -/
def valuesOf (field : String) (changes : List FieldChange) : List String :=
  (fromLast replaces (about field changes)).map value

end FieldChange

/-- What a prelude says of a field. The field that sets cookies says the cookies. -/
def Prelude.told (p : Prelude) (field : String) : List String :=
  if field = cookieName then p.cookies else p.values field

/-- The prelude of a good answer after changes. -/
def Prelude.after (changes : List FieldChange) : Prelude := changes.foldl FieldChange.apply .start

namespace Header

/-- Two characters differ at most in their case. Characters outside of ASCII are part of no name,
whatever their case. -/
def SameLetter (c d : Char) : Prop := c.toLower = d.toLower ∨ 128 ≤ c.toNat ∧ 128 ≤ d.toNat

/-- Two texts differ at most in the case of letters. -/
def Recased (a b : String) : Prop := List.Forall₂ SameLetter a.toList b.toList

end Header

/-- Two changes differ at most in the case of letters of their names. -/
inductive FieldChange.Recased : FieldChange → FieldChange → Prop
  | add {a b value : String} : Header.Recased a b → Recased (.add a value) (.add b value)
  | set {a b value : String} : Header.Recased a b → Recased (.set a value) (.set b value)
  | cookie {text : String} : Recased (.cookie text) (.cookie text)

/-- The change that a call for an answer is, if it is one. -/
def HeadCall.change? : HeadCall → Option FieldChange
  | .status _ => none
  | .header name value => some (.add name value)
  | .cookie text => some (.cookie text)

/-- The change that a call of a writer is, if it is one. -/
def WriterCall.change? : WriterCall → Option FieldChange
  | .addHeader name value => some (.add name value)
  | .setHeader name value => some (.set name value)
  | .writeHeader _ => none
  | .write _ => none

/-! ## The end of a list -/

section FromLast

variable {α : Type} {p : α → Bool}

/-- One more element starts the end anew if it has the property, and else goes behind it. -/
theorem fromLast_concat (l : List α) (a : α) :
    fromLast p (l ++ [a]) = if p a then [a] else fromLast p l ++ [a] := by
  induction l with
  | nil => cases p a <;> rfl
  | cons b l ih =>
    rw [List.cons_append, fromLast, fromLast, List.any_append, ih]
    cases hl : l.any p <;> cases ha : p a <;> simp [ha]

/-- The end starts with the last element that has the property. -/
theorem fromLast_append {before after : List α} {a : α} (ha : p a = true)
    (hafter : ∀ b ∈ after, p b = false) : fromLast p (before ++ a :: after) = a :: after := by
  induction after using List.reverseRecOn with
  | nil => rw [fromLast_concat, if_pos ha]
  | append_singleton after b ih =>
    have hb : ¬ p b = true := by simp [hafter b (by simp)]
    rw [← List.cons_append, ← List.append_assoc, fromLast_concat, if_neg hb,
      ih fun c hc => hafter c (List.mem_append_left _ hc)]

end FromLast

/-! ## Names in another case -/

namespace Header

theorem toLower_of_high {c : Char} (h : 128 ≤ c.toNat) : c.toLower = c := by
  have hnot : ¬ (c.val ≥ 'A'.val ∧ c.val ≤ 'Z'.val) := by
    rintro ⟨-, hle⟩
    have hnat : c.toNat ≤ 90 := UInt32.le_iff_toNat_le.1 hle
    omega
  exact dif_neg hnot

/-- A character belongs to names in both cases or in none. -/
theorem isNameChar_toLower_eq (c : Char) : isNameChar c.toLower = isNameChar c := by
  by_cases hlow : c.toNat < 128
  · have hall : ∀ n : Fin 128,
        isNameChar (Char.ofNat n).toLower = isNameChar (Char.ofNat n) := by decide +kernel
    have hc := hall ⟨c.toNat, hlow⟩
    rwa [Char.ofNat_toNat] at hc
  · rw [toLower_of_high (Nat.not_lt.1 hlow)]

theorem SameLetter.isNameChar_eq {c d : Char} (h : SameLetter c d) :
    isNameChar c = isNameChar d := by
  rcases h with heq | ⟨hc, hd⟩
  · rw [← isNameChar_toLower_eq c, heq, isNameChar_toLower_eq]
  · have hno : ∀ x : Char, 128 ≤ x.toNat → isNameChar x = false := fun x hx =>
      Bool.eq_false_iff.2 fun hname => absurd (FieldsLemmas.isNameChar_low hname) (Nat.not_lt.2 hx)
    rw [hno c hc, hno d hd]

theorem all_isNameChar_eq {cs ds : List Char} (h : List.Forall₂ SameLetter cs ds) :
    cs.all isNameChar = ds.all isNameChar := by
  induction h with
  | nil => rfl
  | cons hc _ ih => rw [List.all_cons, List.all_cons, hc.isNameChar_eq, ih]

/-- In a name all characters are low, so they are equal in lowercase. -/
theorem map_toLower_eq {cs ds : List Char} (h : List.Forall₂ SameLetter cs ds)
    (hall : cs.all isNameChar = true) : cs.map Char.toLower = ds.map Char.toLower := by
  induction h with
  | nil => rfl
  | cons hc _ ih =>
    rw [List.all_cons, Bool.and_eq_true] at hall
    rw [List.map_cons, List.map_cons, ih hall.2]
    rcases hc with heq | ⟨hhigh, _⟩
    · rw [heq]
    · exact absurd (FieldsLemmas.isNameChar_low hall.1) (Nat.not_lt.2 hhigh)

/-- A name is the same in another case, and what is none stays none. -/
theorem Recased.name?_eq {a b : String} (h : Recased a b) : name? a = name? b := by
  have hempty : a.toList.isEmpty = b.toList.isEmpty := by
    rw [Bool.eq_iff_iff, List.isEmpty_iff_length_eq_zero, List.isEmpty_iff_length_eq_zero,
      h.length_eq]
  have hname : isName a = isName b := by
    rw [isName, isName, hempty, h.length_eq, all_isNameChar_eq h]
  unfold name?
  rw [← hname]
  by_cases ha : isName a = true
  · have hall : a.toList.all isNameChar = true := by
      simp only [isName, Bool.and_eq_true] at ha
      exact ha.2
    rw [if_pos ha, if_pos ha, lowercase, lowercase, map_toLower_eq h hall]
  · rw [if_neg ha, if_neg ha]

end Header

/-! ## One change -/

namespace Prelude

variable {p q : Prelude} {name field : String}

theorem told_addHeader (p : Prelude) (name value field : String) :
    (p.addHeader name value).told field =
      if Header.name? name = some field then p.told field ++ [value] else p.told field := by
  cases hname : Header.name? name with
  | none =>
    rw [addHeader_none hname]
    rfl
  | some own =>
    by_cases hcookie : own = cookieName
    · subst hcookie
      rw [addHeader_cookie hname]
      by_cases hfield : field = cookieName
      · simp [told, addCookie, hfield]
      · simp [told, addCookie, values, hfield, Ne.symm hfield]
    · rw [addHeader_field hname hcookie]
      by_cases hfield : field = cookieName
      · simp [told, hfield, hcookie]
      · by_cases hown : own = field
        · simp [told, values, Json.member?_setMember, hfield, hown]
        · simp [told, values, Json.member?_setMember, hfield, hown]

theorem removeHeader_none (h : Header.name? name = none) : p.removeHeader name = p := by
  rw [removeHeader, h]

theorem removeHeader_cookie (h : Header.name? name = some cookieName) :
    p.removeHeader name = { p with cookies := [] } := by
  rw [removeHeader, h]
  exact if_pos rfl

theorem removeHeader_field (h : Header.name? name = some field) (hne : field ≠ cookieName) :
    p.removeHeader name = { p with headers := p.headers.filter fun m => m.1 != field } := by
  rw [removeHeader, h]
  exact if_neg hne

theorem told_removeHeader (p : Prelude) (name field : String) :
    (p.removeHeader name).told field =
      if Header.name? name = some field then [] else p.told field := by
  cases hname : Header.name? name with
  | none =>
    rw [removeHeader_none hname]
    rfl
  | some own =>
    by_cases hcookie : own = cookieName
    · subst hcookie
      rw [removeHeader_cookie hname]
      by_cases hfield : field = cookieName
      · simp [told, hfield]
      · simp [told, values, hfield, Ne.symm hfield]
    · rw [removeHeader_field hname hcookie]
      by_cases hfield : field = cookieName
      · simp [told, hfield, hcookie]
      · by_cases hown : own = field
        · simp [told, values, Json.member?_filter_ne, hfield, hown]
        · simp [told, values, Json.member?_filter_ne, hfield, hown]

theorem removeHeader_wellFormed (h : p.WellFormed) (name : String) :
    (p.removeHeader name).WellFormed := by
  cases hname : Header.name? name with
  | none => rwa [removeHeader_none hname]
  | some own =>
    by_cases hcookie : own = cookieName
    · subst hcookie
      rw [removeHeader_cookie hname]
      exact h.of_headers rfl
    · rw [removeHeader_field hname hcookie]
      exact {
        ascending := h.ascending.filter _
        normal := fun m hm => h.normal m (List.mem_of_mem_filter hm)
        notCookie := fun m hm => h.notCookie m (List.mem_of_mem_filter hm)
        filled := fun m hm => h.filled m (List.mem_of_mem_filter hm) }

/-- A prelude is what it says of its fields, and its status. -/
theorem told_ext (hp : p.WellFormed) (hq : q.WellFormed) (hstatus : p.status = q.status)
    (h : ∀ field, p.told field = q.told field) : p = q := by
  have hcookies : p.cookies = q.cookies := by simpa [told] using h cookieName
  have hnoEntry : ∀ {r : Prelude}, r.WellFormed → Json.member? cookieName r.headers = none := by
    intro r hr
    refine Option.eq_none_iff_forall_ne_some.2 fun vs hvs => ?_
    exact hr.notCookie _ (Json.mem_of_member? hvs) rfl
  have hheaders : p.headers = q.headers := by
    refine Json.ascending_ext hp.ascending hq.ascending fun field => ?_
    by_cases hfield : field = cookieName
    · rw [hfield, hnoEntry hp, hnoEntry hq]
    · have hvalues : p.values field = q.values field := by simpa [told, hfield] using h field
      rw [hp.member?, hq.member?, hvalues]
  cases p
  cases q
  cases hstatus
  cases hcookies
  cases hheaders
  rfl

end Prelude

namespace FieldChange

open Prelude

variable {c d : FieldChange} {p : Prelude}

theorem apply_wellFormed (h : p.WellFormed) (c : FieldChange) : (c.apply p).WellFormed := by
  cases c with
  | add name value => exact addHeader_wellFormed h name value
  | set name value => exact addHeader_wellFormed (removeHeader_wellFormed h name) name value
  | cookie text => exact h.of_headers rfl

/-- A change of a field replaces what is said of it or goes behind it, and other fields stay. -/
theorem told_apply (c : FieldChange) (p : Prelude) (field : String) :
    (c.apply p).told field =
      if c.field? = some field then
        if c.replaces then [c.value] else p.told field ++ [c.value]
      else p.told field := by
  cases c with
  | add name value => exact told_addHeader p name value field
  | set name value =>
    change ((p.removeHeader name).addHeader name value).told field = _
    rw [told_addHeader, told_removeHeader]
    by_cases hname : Header.name? name = some field
    · simp [field?, replaces, FieldChange.value, hname]
    · simp [field?, hname]
  | cookie text =>
    by_cases hfield : field = cookieName
    · simp [apply, told, addCookie, field?, replaces, FieldChange.value, hfield]
    · simp [apply, told, addCookie, values, field?, hfield, Ne.symm hfield]

theorem apply_status (c : FieldChange) (p : Prelude) : (c.apply p).status = p.status := by
  have hadd : ∀ (q : Prelude) name value, (q.addHeader name value).status = q.status := by
    intro q name value
    unfold addHeader
    split
    · rfl
    · split <;> rfl
  cases c with
  | add name value => exact hadd p name value
  | set name value =>
    change ((p.removeHeader name).addHeader name value).status = p.status
    rw [hadd]
    unfold removeHeader
    split
    · rfl
    · split <;> rfl
  | cookie text => rfl

/-- The case of letters in names does not matter. -/
theorem Recased.apply_eq (h : Recased c d) (p : Prelude) : c.apply p = d.apply p := by
  have hadd : ∀ {a b : String}, Header.Recased a b → ∀ (q : Prelude) value,
      q.addHeader a value = q.addHeader b value := by
    intro a b hname q value
    rw [addHeader, addHeader, hname.name?_eq]
  cases h with
  | add hname => exact hadd hname p _
  | set hname =>
    change (p.removeHeader _).addHeader _ _ = (p.removeHeader _).addHeader _ _
    rw [hadd hname, removeHeader, removeHeader, hname.name?_eq]
  | cookie => rfl

/-! ## All changes -/

theorem about_concat (field : String) (changes : List FieldChange) (c : FieldChange) :
    about field (changes ++ [c]) =
      if c.field? = some field then about field changes ++ [c] else about field changes := by
  rw [about, List.filter_append]
  by_cases hc : c.field? = some field
  · rw [if_pos hc, List.filter_cons_of_pos (by simpa using hc)]
    rfl
  · rw [if_neg hc, List.filter_cons_of_neg (by simpa using hc)]
    exact List.append_nil _

theorem valuesOf_concat (field : String) (changes : List FieldChange) (c : FieldChange) :
    valuesOf field (changes ++ [c]) =
      if c.field? = some field then
        if c.replaces then [c.value] else valuesOf field changes ++ [c.value]
      else valuesOf field changes := by
  rw [valuesOf, about_concat]
  by_cases hc : c.field? = some field
  · rw [if_pos hc, if_pos hc, fromLast_concat]
    split
    · rfl
    · exact List.map_append
  · rw [if_neg hc, if_neg hc, valuesOf]

theorem after_concat (changes : List FieldChange) (c : FieldChange) :
    after (changes ++ [c]) = c.apply (after changes) := by
  rw [after, List.foldl_append]
  rfl

theorem after_wellFormed (changes : List FieldChange) : (after changes).WellFormed := by
  induction changes using List.reverseRecOn with
  | nil => exact start_wellFormed
  | append_singleton changes c ih =>
    rw [after_concat]
    exact apply_wellFormed ih c

theorem after_status (changes : List FieldChange) : (after changes).status = 200 := by
  induction changes using List.reverseRecOn with
  | nil => rfl
  | append_singleton changes c ih => rw [after_concat, apply_status, ih]

/-- After any changes a prelude says of each field the values since its last replacement. -/
theorem told_after (changes : List FieldChange) (field : String) :
    (after changes).told field = valuesOf field changes := by
  -- The last change is made last, and it asks only for what was said before.
  induction changes using List.reverseRecOn with
  | nil => simp [after, told, start, values, Json.member?, valuesOf, about, fromLast]
  | append_singleton changes c ih => rw [after_concat, told_apply, valuesOf_concat, ih]

/-- Changes that give every field the same values make the same prelude. -/
theorem after_ext {changes others : List FieldChange}
    (h : ∀ field, valuesOf field changes = valuesOf field others) :
    after changes = after others := by
  refine told_ext (after_wellFormed changes) (after_wellFormed others) ?_ fun field => ?_
  · rw [after_status, after_status]
  · rw [told_after, told_after, h]

theorem after_recased {changes others : List FieldChange}
    (h : List.Forall₂ Recased changes others) : after changes = after others := by
  suffices hfold : ∀ p, changes.foldl apply p = others.foldl apply p from hfold .start
  induction h with
  | nil => exact fun _ => rfl
  | cons hc _ ih =>
    intro p
    rw [List.foldl_cons, List.foldl_cons, hc.apply_eq, ih]

theorem after_named (changes : List FieldChange) :
    after (changes.filter fun c => c.field?.isSome) = after changes := by
  refine after_ext fun field => ?_
  have habout : about field (changes.filter fun c => c.field?.isSome) = about field changes := by
    rw [about, List.filter_filter]
    refine List.filter_congr fun c _ => ?_
    cases c.field? <;> simp
  rw [valuesOf, habout, valuesOf]

/-- What stands before a replacement does not matter to its field, and all that stands behind it
does. -/
theorem valuesOf_set {before rest : List FieldChange} {name value field : String}
    (hname : Header.name? name = some field) (hrest : ∀ c ∈ about field rest, c.replaces = false) :
    valuesOf field (before ++ .set name value :: rest) =
      value :: (about field rest).map FieldChange.value := by
  have hset : (set name value).field? = some field := hname
  have habout : about field (before ++ .set name value :: rest) =
      about field before ++ .set name value :: about field rest := by
    rw [about, List.filter_append, List.filter_cons_of_pos (by simpa using hset)]
    rfl
  rw [valuesOf, habout, fromLast_append rfl hrest]
  rfl

end FieldChange

/-! ## Answers and writers -/

section Makers

open FieldChange Prelude

/-- The calls for an answer change its head. -/
theorem HeadCall.head_build (calls : List HeadCall) (body : List Signal) :
    (build calls body).head =
      { after (calls.filterMap change?) with status := statusOf calls } := by
  induction calls using List.reverseRecOn with
  | nil => rfl
  | append_singleton calls call ih =>
    have hbuild : build (calls ++ [call]) body = call.apply (build calls body) := by
      rw [build, List.foldl_append]
      rfl
    rw [hbuild, statusOf_append, List.filterMap_append]
    cases call with
    | status code =>
      change { (build calls body).head with status := code.toNat } = _
      rw [ih, List.filterMap_cons_none rfl, List.filterMap_nil, List.append_nil]
      rfl
    | header name value =>
      change (build calls body).head.addHeader name value = _
      rw [ih, WritingLemmas.addHeader_status]
      change _ = ({ after (_ ++ [.add name value]) with status := _ } : Prelude)
      rw [after_concat]
      rfl
    | cookie text =>
      change (build calls body).head.addCookie text = _
      change _ = ({ after (_ ++ [.cookie text]) with status := _ } : Prelude)
      rw [ih, after_concat]
      rfl

/-- The calls of a writer in front of the first one that settles the prelude change it. -/
theorem WriterCall.settled_start (calls : List WriterCall) :
    Prelude.start.settled calls =
      { after ((headOf calls).filterMap change?) with status := statusOf calls } := by
  have hprepared : ∀ (heads : List WriterCall) (p : Prelude),
      heads.foldl (fun p call => call.prepare p) p = (heads.filterMap change?).foldl apply p := by
    intro heads
    induction heads with
    | nil => exact fun _ => rfl
    | cons call heads ih =>
      intro p
      cases call <;> exact ih _
  rw [settled, hprepared]
  rfl

end Makers

/-- The header fields of a prelude follow the changes that are made, whatever they are.

The table keeps its form: names are in lowercase and in order, none is the one of cookies, and each
has a value. A field has the values since its last replacement in the order of the changes, under
whatever spelling of the name they were told, and so have the cookies. Changes under a text that is
no name do nothing, the case of names does not change an octet of what is sent, and changes of
different fields may be made in any order. All this holds of an answer that is made at once, and of
a writer before it settles its prelude. -/
theorem Prelude.fields_follow_changes (changes : List FieldChange) :
    (after changes).WellFormed ∧
    (∀ field, field ≠ cookieName →
      (after changes).values field = FieldChange.valuesOf field changes) ∧
    (after changes).cookies = FieldChange.valuesOf cookieName changes ∧
    (∀ before name value rest field, changes = before ++ .set name value :: rest →
      Header.name? name = some field →
      (∀ c ∈ FieldChange.about field rest, c.replaces = false) →
      FieldChange.valuesOf field changes =
        value :: (FieldChange.about field rest).map FieldChange.value) ∧
    after (changes.filter fun c => c.field?.isSome) = after changes ∧
    (∀ others status, List.Forall₂ FieldChange.Recased changes others →
      ({ after others with status := status } : Prelude).encode =
        ({ after changes with status := status } : Prelude).encode) ∧
    (∀ others, (∀ field, FieldChange.about field others = FieldChange.about field changes) →
      after others = after changes) ∧
    (∀ calls body, calls.filterMap HeadCall.change? = changes →
      (HeadCall.build calls body).head =
        { after changes with status := HeadCall.statusOf calls }) ∧
    ∀ calls ending, (WriterCall.headOf calls).filterMap WriterCall.change? = changes →
      Channel.start.items calls ending =
        .ok ({ after changes with status := WriterCall.statusOf calls } : Prelude).encode ::
          bodyItems calls ending := by
  have htold := FieldChange.told_after changes
  refine ⟨FieldChange.after_wellFormed changes, ?values, ?cookies, ?replaced,
    FieldChange.after_named changes, ?case, ?order, ?answer, ?writer⟩
  case values =>
    intro field hfield
    rw [← htold, told, if_neg hfield]
  case cookies => rw [← htold, told, if_pos rfl]
  case replaced =>
    rintro before name value rest field rfl hname hrest
    exact FieldChange.valuesOf_set hname hrest
  case case =>
    intro others status hrecased
    rw [FieldChange.after_recased hrecased]
  case order =>
    intro others habout
    refine FieldChange.after_ext fun field => ?_
    rw [FieldChange.valuesOf, habout, FieldChange.valuesOf]
  case answer =>
    rintro calls body rfl
    exact HeadCall.head_build calls body
  case writer =>
    rintro calls ending rfl
    rw [Channel.items_eq, streamed, WriterCall.settled_start]

/-- A replacement takes the cookies that were set before, in whatever spelling. -/
example : (Prelude.after [.add "X-Trace" "a", .add "Set-Cookie" "old=1", .cookie "old=2",
    .set "x-trace" "b", .set "SET-COOKIE" "new=1", .add "bad header" "dropped"]) =
      ⟨200, [("x-trace", ["b"])], ["new=1"]⟩ := by decide +kernel

end FunctionWorker
