import Mathlib.Data.Bool.AllAny
import Mathlib.Data.List.TakeWhile
import FunctionWorker.Host.Client

/-!
# Requests that can be made

A client that can ask for an invoke can also post what has become of it: the target of the post
differs from the one of the question only behind the base, and there stands an id whose characters
do no harm. Only the length of the id can.

Results:
1. `parse_of_parse`, `path_of_parse`: a target stays one when other characters of a segment stand
   behind its base, and behind a bare address all of them are path.
2. `success_spec`, `failure_spec`: where a post goes, and the one reason for which there is none.
3. `success_for`, `failure_for`: where a post goes if there is one, whatever the id is.
-/

namespace FunctionWorker

/-! ## Definitions -/

/-- Whether a character may stand in a segment of a path, wherever the path itself stands. The
quotation mark may stand in a path but not in a query, and in no segment of a well-formed target. -/
def Target.isSegmentChar (c : Char) : Bool := isPathChar c && c != '/' && c != '"'

/-- The characters of the id may stand in a segment of a path. -/
def Invoke.HasSegmentId (i : Invoke) : Prop := i.id.toList.all Target.isSegmentChar = true

/-- The address of the client is an authority and nothing else. -/
def Client.IsBare (c : Client) : Prop := c.address.toList.all (fun x => !Target.endsAuthority x) = true

/-- The target of an exchange has too many octets. -/
def Client.TooLong (c : Client) (e : Exchange) : Prop :=
  Target.maxLength < (Target.scheme ++ c.target e).utf8ByteSize

/-- The request belongs to the exchange: it has the method, and it goes to the target. -/
structure Request.For (c : Client) (e : Exchange) (method : Method) (r : Request) : Prop where
  method : r.method = method
  target : Target.parse (c.target e) = .ok r.target

/-! ## Targets -/

namespace RequestsLemmas

open Target

theorem segment_path {c : Char} (h : isSegmentChar c = true) : isPathChar c = true := by
  simp only [isSegmentChar, Bool.and_eq_true] at h
  exact h.1.1

theorem segment_query {c : Char} (h : isSegmentChar c = true) : isQueryChar c = true := by
  simp only [isSegmentChar, isPathChar, Bool.and_eq_true, Bool.or_eq_true, bne_iff_ne] at h
  obtain ⟨⟨h, _⟩, hquote⟩ := h
  simp only [isQueryChar, Bool.or_eq_true]
  have hsigns : ∀ x ∈ "!\"$%&'()*+,-./:;=@[\\]^_\x7b|\x7d~".toList, x ≠ '"' →
      x ∈ "!$%&'()*+,-./:;=?@[\\]^_`\x7b|\x7d~".toList :=
    List.all_iff_forall_prop.1 (by decide)
  rcases h with h | h
  · exact Or.inl h
  · exact Or.inr (List.contains_iff_mem.2 (hsigns c (List.contains_iff_mem.1 h) hquote))

abbrev isPlain (c : Char) : Bool := c != '?' && c != '#'

theorem segment_plain {c : Char} (h : isSegmentChar c = true) : isPlain c = true := by
  simp only [isPlain, Bool.and_eq_true, bne_iff_ne]
  constructor
  · rintro rfl
    exact absurd h (by decide)
  · rintro rfl
    exact absurd h (by decide)

/-- The characters of a text that stand in front of its path. -/
abbrev front (text : String) : List Char := text.toList.takeWhile fun c => !endsAuthority c

theorem parse_tooLong {text : String} (h : maxLength < (scheme ++ text).utf8ByteSize) :
    parse text = .error .tooLong := by
  unfold parse
  rw [if_pos h]
  rfl

/-- Reading a target of a length that is allowed: the authority, then the path behind it. -/
theorem parse_eq {text : String} (h : ¬ maxLength < (scheme ++ text).utf8ByteSize) :
    parse text = (checkAuthority (front text)).bind fun _ =>
      if (front text).isEmpty then .error .noAuthority
      else (parsePath (text.toList.drop (front text).length)).map fun (path, query) =>
        ⟨String.ofList (front text), if path.isEmpty then "/" else String.ofList path,
          query.map String.ofList⟩ := by
  unfold parse
  rw [if_neg h]
  cases hcheck : checkAuthority (front text) with
  | error e => simp [hcheck, bind, Except.bind]
  | ok u =>
    by_cases hempty : (front text).isEmpty = true
    · simp only [hcheck, bind, Except.bind, hempty, if_true]
    · cases hpath : parsePath (text.toList.drop (front text).length) <;>
        simp [hcheck, hpath, hempty, bind, Except.bind, Except.map, pure, Except.pure]

theorem parsePath_of_plain {cs : List Char} (h : cs.all isPlain = true) :
    parsePath cs = if cs.all isPathChar then .ok (cs, none) else .error .character := by
  have htake : (cs.takeWhile fun c => c != '?' && c != '#') = cs :=
    List.takeWhile_eq_self_iff.2 (List.all_eq_true.1 h)
  simp only [parsePath, htake, List.drop_length]
  cases cs.all isPathChar <;> rfl

/-- Behind a number sign nothing counts. -/
theorem parsePath_of_number {pre post : List Char} (h : pre.all isPlain = true) :
    parsePath (pre ++ '#' :: post) =
      if pre.all isPathChar then .ok (pre, none) else .error .character := by
  have htake : ((pre ++ '#' :: post).takeWhile fun c => c != '?' && c != '#') = pre := by
    rw [List.takeWhile_append_of_pos (List.all_eq_true.1 h)]
    simp
  simp only [parsePath, htake, List.drop_left]
  cases pre.all isPathChar <;> rfl

/-- Behind a question mark stands the query. -/
theorem parsePath_of_question {pre post : List Char} (h : pre.all isPlain = true) :
    parsePath (pre ++ '?' :: post) =
      if pre.all isPathChar && (post.takeWhile (· != '#')).all isQueryChar then
        .ok (pre, some (post.takeWhile (· != '#')))
      else .error .character := by
  have htake : ((pre ++ '?' :: post).takeWhile fun c => c != '?' && c != '#') = pre := by
    rw [List.takeWhile_append_of_pos (List.all_eq_true.1 h)]
    simp
  simp only [parsePath, htake, List.drop_left]
  cases pre.all isPathChar <;> cases (post.takeWhile (· != '#')).all isQueryChar <;> rfl

/-- A text is a path as a whole, or it begins with one that a mark ends. -/
theorem plain_or_marked (cs : List Char) : cs.all isPlain = true ∨
    ∃ pre mark post, cs = pre ++ mark :: post ∧ pre.all isPlain = true ∧ (mark = '?' ∨ mark = '#') := by
  induction cs with
  | nil => exact Or.inl rfl
  | cons c rest ih =>
    cases hc : isPlain c with
    | false =>
      refine Or.inr ⟨[], c, rest, rfl, rfl, ?_⟩
      simpa [isPlain, Classical.or_iff_not_imp_left] using hc
    | true =>
      rcases ih with h | ⟨pre, mark, post, rfl, hpre, hmark⟩
      · exact Or.inl (by simp [hc, h])
      · exact Or.inr ⟨c :: pre, mark, post, rfl, by simp [hc, hpre], hmark⟩

/-- What can be read stays readable when its end is replaced by characters that do no harm. -/
theorem parsePath_of_parsePath {cs a b : List Char} {r : List Char × Option (List Char)}
    (ha : a.all isPlain = true) (hb : b.all isPlain = true) (hpath : b.all isPathChar = true)
    (hquery : b.all isQueryChar = true) (h : parsePath (cs ++ a) = .ok r) :
    ∃ r', parsePath (cs ++ b) = .ok r' := by
  -- Whether the end belongs to the path, to the query or to neither is settled before it.
  rcases plain_or_marked cs with hcs | ⟨pre, mark, post, rfl, hpre, rfl | rfl⟩
  · rw [parsePath_of_plain (by simp [hcs, ha])] at h
    split at h
    · next hall =>
      rw [List.all_append, Bool.and_eq_true] at hall
      rw [parsePath_of_plain (by simp [hcs, hb])]
      simp [hall.1, hpath]
    · cases h
  · rw [List.append_assoc, List.cons_append, parsePath_of_question hpre] at h ⊢
    split at h
    · next hall =>
      rw [Bool.and_eq_true] at hall
      have hvalid : ((post ++ b).takeWhile (· != '#')).all isQueryChar = true := by
        have hold := hall.2
        rw [List.takeWhile_append] at hold ⊢
        split at hold
        · next hfull =>
          rw [List.all_append, Bool.and_eq_true] at hold
          rw [if_pos hfull, List.all_append, hold.1, Bool.true_and, List.all_eq_true]
          intro c hc
          exact List.all_eq_true.1 hquery c (List.takeWhile_subset _ hc)
        · next hfull => rwa [if_neg hfull]
      rw [hall.1, hvalid]
      exact ⟨_, rfl⟩
    · cases h
  · -- Neither end counts.
    rw [List.append_assoc, List.cons_append, parsePath_of_number hpre] at h ⊢
    exact ⟨r, h⟩

/-- The front of a text ends where a mark stands that ends it. -/
theorem front_append {base a : String} (h : base.toList.any endsAuthority = true) :
    front (base ++ a) = front base := by
  obtain ⟨c, hc, hends⟩ := List.any_eq_true.1 h
  have hnot : (front base).length ≠ base.toList.length := by
    intro hfull
    have hself := (List.takeWhile_prefix fun c => !endsAuthority c).eq_of_length hfull
    rw [List.takeWhile_eq_self_iff] at hself
    simpa [hends] using hself c hc
  simp only [front, String.toList_append]
  rw [List.takeWhile_append, if_neg hnot]

theorem drop_front_append {base a : String} (h : base.toList.any endsAuthority = true) :
    (base ++ a).toList.drop (front (base ++ a)).length =
      base.toList.drop (front base).length ++ a.toList := by
  rw [front_append h, String.toList_append,
    List.drop_append_of_le_length (List.takeWhile_prefix _).length_le]

end RequestsLemmas

open RequestsLemmas

/-- A target stays one when its end is replaced, as long as it does not grow too long by that. -/
theorem parse_of_parse {base a b : String} {t : Target}
    (hbase : base.toList.any Target.endsAuthority = true) (ha : a.toList.all isPlain = true)
    (hb : b.toList.all isPlain = true) (hpath : b.toList.all Target.isPathChar = true)
    (hquery : b.toList.all Target.isQueryChar = true)
    (hlen : ¬ Target.maxLength < (Target.scheme ++ (base ++ b)).utf8ByteSize)
    (h : Target.parse (base ++ a) = .ok t) : ∃ u, Target.parse (base ++ b) = .ok u := by
  have hshort : ¬ Target.maxLength < (Target.scheme ++ (base ++ a)).utf8ByteSize := by
    intro hlong
    rw [parse_tooLong hlong] at h
    cases h
  -- The authority ends within the base, so the two targets have the same.
  rw [parse_eq hshort, drop_front_append hbase, front_append hbase] at h
  rw [parse_eq hlen, drop_front_append hbase, front_append hbase]
  cases hcheck : Target.checkAuthority (front base) with
  | error e => simp [hcheck, Except.bind] at h
  | ok _ =>
    cases hempty : (front base).isEmpty with
    | true => simp [hcheck, hempty, Except.bind] at h
    | false =>
      cases hread : Target.parsePath (base.toList.drop (front base).length ++ a.toList) with
      | error e => simp [hcheck, hempty, hread, Except.bind, Except.map] at h
      | ok r =>
        obtain ⟨r', hr'⟩ := parsePath_of_parsePath ha hb hpath hquery hread
        simp only [hr', Except.bind, Except.map]
        exact ⟨_, rfl⟩

/-- A bare address is the authority of a target, and all behind it is the path. -/
theorem path_of_parse {address path : String} {t : Target}
    (haddress : address.toList.all (fun c => !Target.endsAuthority c) = true)
    (hslash : path.toList.head? = some '/') (hplain : path.toList.all isPlain = true)
    (h : Target.parse (address ++ path) = .ok t) : t.authority = address ∧ t.path = path := by
  obtain ⟨rest, hpath⟩ : ∃ rest, path.toList = '/' :: rest := List.head?_eq_some_iff.1 hslash
  have hfront : front (address ++ path) = address.toList := by
    rw [front, String.toList_append, List.takeWhile_append_of_pos (List.all_eq_true.1 haddress),
      hpath, List.takeWhile_cons_of_neg (by decide), List.append_nil]
  have hshort : ¬ Target.maxLength < (Target.scheme ++ (address ++ path)).utf8ByteSize := by
    intro hlong
    rw [parse_tooLong hlong] at h
    cases h
  rw [parse_eq hshort, hfront, String.toList_append, List.drop_left, parsePath_of_plain hplain] at h
  cases hcheck : Target.checkAuthority address.toList with
  | error e => simp [hcheck, Except.bind] at h
  | ok _ =>
    cases hempty : address.toList.isEmpty with
    | true => simp [hcheck, hempty, Except.bind] at h
    | false =>
      cases hvalid : path.toList.all Target.isPathChar with
      | false => simp [hcheck, hempty, hvalid, Except.bind, Except.map] at h
      | true =>
        have hfull : path.toList.isEmpty = false := by
          rw [hpath]
          rfl
        simp only [hcheck, hempty, hvalid, hfull, Except.bind, Except.map, if_true,
          Bool.false_eq_true, if_false, Except.ok.injEq] at h
        subst h
        exact ⟨String.ofList_toList, String.ofList_toList⟩

/-- Behind a bare address the path is the one of the exchange. -/
theorem Request.For.path_eq {c : Client} {e : Exchange} {method : Method} {r : Request}
    (h : r.For c e method) (hbare : c.IsBare) (hplain : e.path.toList.all isPlain = true) :
    r.target.path = "/2018-06-01/runtime" ++ e.path := by
  have htarget := h.target
  rw [Client.target, Client.base, String.append_assoc] at htarget
  refine (path_of_parse hbare ?_ ?_ htarget).2
  · rw [String.toList_append, List.head?_append]
    rfl
  · rw [String.toList_append, List.all_append, hplain]
    decide

/-! ## Requests -/

section Requests

variable {c : Client} {id : String}

theorem make_eq {method : Method} {target : String} {headers : Headers} {body : Outgoing}
    (h : headers.all (fun h => Header.isValue h.2) = true) :
    Request.make method target headers body =
      match Target.parse target with
      | .ok t => .ok ⟨method, t,
          (Request.userAgentHeader, Bytes.ofText Request.userAgent) :: headers, body⟩
      | .error fault => .error (.request fault.message) := by
  unfold Request.make
  cases Target.parse target <;> simp [h, Except.mapError, bind, Except.bind, pure, Except.pure]

theorem make_for {e : Exchange} {method : Method} {headers : Headers} {body : Outgoing} {t : Target}
    (h : headers.all (fun h => Header.isValue h.2) = true) (ht : Target.parse (c.target e) = .ok t) :
    ∃ r, Request.make method (c.target e) headers body = .ok r ∧ r.For c e method := by
  rw [make_eq h, ht]
  exact ⟨_, rfl, rfl, ht⟩

theorem make_tooLong {e : Exchange} {method : Method} {headers : Headers} {body : Outgoing}
    (h : headers.all (fun h => Header.isValue h.2) = true) (hlong : c.TooLong e) :
    Request.make method (c.target e) headers body = .error (.request "uri too long") := by
  rw [make_eq h, parse_tooLong hlong]
  rfl

/-- What is in a request that can be made. -/
theorem make_parts {method : Method} {target : String} {headers : Headers} {body : Outgoing}
    {r : Request} (h : Request.make method target headers body = .ok r) :
    r.method = method ∧ Target.parse target = .ok r.target ∧
      r.headers = (Request.userAgentHeader, Bytes.ofText Request.userAgent) :: headers ∧
        r.body = body := by
  unfold Request.make at h
  cases htarget : Target.parse target with
  | error fault =>
    rw [htarget] at h
    cases h
  | ok t =>
    rw [htarget] at h
    simp only [Except.mapError, bind, Except.bind, pure, Except.pure] at h
    split at h
    · cases h
      exact ⟨rfl, rfl, rfl, rfl⟩
    · cases h

/-- The question for an invoke, if it can be put, goes where it should. -/
theorem next_for {r : Request} (h : c.next = .ok r) : r.For c .next .get := by
  obtain ⟨hmethod, htarget, _, _⟩ := make_parts h
  exact ⟨hmethod, htarget⟩

/-- What holds of the characters of a segment, of the slash and of letters holds of the path of a
post. -/
theorem path_all {e : Exchange} (he : e = .response id ∨ e = .error id)
    (hid : id.toList.all Target.isSegmentChar = true) (q : Char → Bool)
    (hq : ∀ x, Target.isSegmentChar x = true → q x = true) (hslash : q '/' = true) :
    e.path.toList.all q = true := by
  have hfixed : ∀ x ∈ "/invocation/response/error".toList,
      x = '/' ∨ Target.isSegmentChar x = true := List.all_iff_forall_prop.1 (by decide)
  have hall : ∀ cs ⊆ "/invocation/response/error".toList, cs.all q = true := by
    intro cs hcs
    refine List.all_eq_true.2 fun x hx => ?_
    rcases hfixed x (hcs hx) with rfl | hx
    · exact hslash
    · exact hq x hx
  have hid' : id.toList.all q = true :=
    List.all_eq_true.2 fun x hx => hq x (List.all_eq_true.1 hid x hx)
  have h1 := hall "/invocation/".toList (by decide)
  rcases he with rfl | rfl
  · simp only [Exchange.path, String.toList_append, List.all_append, h1, hid',
      hall "/response".toList (by decide), Bool.and_self]
  · simp only [Exchange.path, String.toList_append, List.all_append, h1, hid',
      hall "/error".toList (by decide), Bool.and_self]

/-- Where a question can be put, there is a target for the post that answers it. -/
theorem post_target {e : Exchange} {ask : Request} (hnext : c.next = .ok ask)
    (he : e = .response id ∨ e = .error id) (hid : id.toList.all Target.isSegmentChar = true)
    (hshort : ¬ c.TooLong e) : ∃ t, Target.parse (c.target e) = .ok t := by
  have hbase : c.base.toList.any Target.endsAuthority = true := by
    rw [Client.base, String.toList_append, List.any_append]
    exact Bool.or_eq_true_iff.2 (Or.inr (by decide))
  have hplain := path_all he hid isPlain (fun _ => segment_plain) rfl
  have hpath := path_all he hid Target.isPathChar (fun _ => segment_path) (by decide)
  have hquery := path_all he hid Target.isQueryChar (fun _ => segment_query) (by decide)
  exact parse_of_parse hbase (a := "/invocation/next") (by decide) hplain hpath hquery hshort
    (next_for hnext).target

/-- A response whose type can be sent has no other header field that cannot. -/
theorem success_eq (c : Client) (id : String) {r : Response}
    (htype : Header.isValue (Bytes.ofText r.effectiveType) = true) :
    ∃ headers body, headers.all (fun h => Header.isValue h.2) = true ∧
      c.success id r = Request.make .post (c.target (.response id)) headers body := by
  have htrailers : Header.isValue (Bytes.ofText Client.declaredTrailers) = true := by decide
  simp only [Client.success, if_pos htype]
  refine ⟨_, _, ?_, rfl⟩
  split <;> simp [htype, htrailers]

/-- No failure has a header field that cannot be sent: its kind is left out then. -/
theorem failure_eq (c : Client) (id : String) (e : Failure) :
    ∃ headers body, headers.all (fun h => Header.isValue h.2) = true ∧
      c.failure id e = Request.make .post (c.target (.error id)) headers body := by
  have htype : Header.isValue (Bytes.ofText Response.jsonType) = true := by decide
  refine ⟨_, _, ?_, rfl⟩
  simp only [Failure.kindHeader?]
  cases hkind : Header.isValue (Bytes.ofText e.kind) <;> simp [htype, hkind]

/-- A post goes to its place, or its target is too long. -/
theorem post_spec {e : Exchange} {ask : Request} {headers : Headers} {body : Outgoing}
    (hnext : c.next = .ok ask) (he : e = .response id ∨ e = .error id)
    (hid : id.toList.all Target.isSegmentChar = true)
    (hheaders : headers.all (fun h => Header.isValue h.2) = true) :
    (∃ r, Request.make .post (c.target e) headers body = .ok r ∧ r.For c e .post) ∨
      c.TooLong e ∧
        Request.make .post (c.target e) headers body = .error (.request "uri too long") := by
  by_cases hlong : c.TooLong e
  · exact Or.inr ⟨hlong, make_tooLong hheaders hlong⟩
  · obtain ⟨t, ht⟩ := post_target hnext he hid hlong
    exact Or.inl (make_for hheaders ht)

/-- The post of a response whose type can be sent. -/
theorem success_spec {ask : Request} {r : Response} (hnext : c.next = .ok ask)
    (hid : id.toList.all Target.isSegmentChar = true)
    (htype : Header.isValue (Bytes.ofText r.effectiveType) = true) :
    (∃ post, c.success id r = .ok post ∧ post.For c (.response id) .post) ∨
      c.TooLong (.response id) ∧ c.success id r = .error (.request "uri too long") := by
  obtain ⟨headers, body, hheaders, heq⟩ := success_eq c id htype
  rw [heq]
  exact post_spec hnext (Or.inl rfl) hid hheaders

/-- The post of a failure, whatever it says. -/
theorem failure_spec {ask : Request} {e : Failure} (hnext : c.next = .ok ask)
    (hid : id.toList.all Target.isSegmentChar = true) :
    (∃ post, c.failure id e = .ok post ∧ post.For c (.error id) .post) ∨
      c.TooLong (.error id) ∧ c.failure id e = .error (.request "uri too long") := by
  obtain ⟨headers, body, hheaders, heq⟩ := failure_eq c id e
  rw [heq]
  exact post_spec hnext (Or.inr rfl) hid hheaders

/-- The post of a response, if it can be made, goes where it should, whatever the id is. -/
theorem success_for {r : Response} {post : Request} (h : c.success id r = .ok post) :
    post.For c (.response id) .post := by
  by_cases htype : Header.isValue (Bytes.ofText r.effectiveType) = true
  · simp only [Client.success, if_pos htype] at h
    obtain ⟨hmethod, htarget, _, _⟩ := make_parts h
    exact ⟨hmethod, htarget⟩
  · simp only [Client.success, if_neg htype] at h
    cases h

/-- So does the post of a failure. -/
theorem failure_for {e : Failure} {post : Request} (h : c.failure id e = .ok post) :
    post.For c (.error id) .post := by
  obtain ⟨hmethod, htarget, _, _⟩ := make_parts h
  exact ⟨hmethod, htarget⟩

end Requests

end FunctionWorker
