import FunctionWorker.Proofs.Host.Requests
import FunctionWorker.Proofs.Response.Frame
import FunctionWorker.Proofs.Response.Trailers

/-!
# Sending a body

A body is looked at again and again until it is at its end. What these looks find is told by the
items of the response alone, however often a look finds nothing yet.

Results:
1. `frames_ofResponse`: the frames of a body are its pieces, and the trailers of its failure.
2. `poll_cases`: what one look does to the frames that are still to come.
3. `polls_prefix`, `polls_complete`: what any number of looks finds.
4. `after_behind`: what stands behind a failure is never taken.
5. `sends_what_it_collects`: the looks, the end, the size, the collected body and the declared
   trailers of any response agree.
-/

namespace FunctionWorker

open Outgoing (polls)

/-! ## Definitions -/

namespace Item

/-- The pieces in front of the first failure. -/
def pieces (items : List Item) : List Bytes := (items.takeWhile (·.isOk)).filterMap (·.toOption)

/-- The first failure. -/
def failure? (items : List Item) : Option Failure :=
  items.findSome? fun
    | .error e => some e
    | .ok _ => none

end Item

/-- The frames that items make: the pieces that are not empty, and trailers for a failure. -/
def framesOf (items : List Item) : List Frame :=
  ((Item.pieces items).filter (· ≠ [])).map .data ++
    ((Item.failure? items).map fun e => .trailers e.trailers).toList

/-- The frames in which a response is sent. A complete body is one frame, also if it is empty. -/
def Response.wire (r : Response) : List Frame :=
  match r.body with
  | .buffered bytes => [.data bytes]
  | .stream signals => framesOf (itemsOf signals)

namespace Outgoing

def Poll.frame? : Poll → Option Frame
  | .frame f => some f
  | _ => none

/-- The frames that the first looks at a body find. -/
def found (looks : Nat) (o : Outgoing) : List Frame := (polls looks o).filterMap Poll.frame?

/-- A body after some looks at it. -/
def after : (looks : Nat) → Outgoing → Outgoing
  | 0, o => o
  | looks + 1, o => after looks o.poll.2

/-- So many looks are sure to reach the end. -/
def looksLeft : Outgoing → Nat
  | .full _ => 1
  | .stream signals => signals.length
  | .done => 0

end Outgoing

/-! ## Items -/

namespace SendingLemmas

theorem framesOf_ok {bytes : Bytes} (h : bytes ≠ []) (rest : List Item) :
    framesOf (.ok bytes :: rest) = .data bytes :: framesOf rest := by
  have hpieces : Item.pieces (.ok bytes :: rest) = bytes :: Item.pieces rest := rfl
  have hfailure : Item.failure? (.ok bytes :: rest) = Item.failure? rest := rfl
  rw [framesOf, hpieces, hfailure, List.filter_cons_of_pos (by simpa using h)]
  rfl

theorem streamFrames_eq (signals : List Signal) :
    Outgoing.streamFrames signals = framesOf (itemsOf signals) := by
  fun_induction Outgoing.streamFrames signals with
  | case1 => rfl
  | case2 rest ih => exact ih
  | case3 rest ih => exact ih
  | case4 rest bytes hnonempty ih =>
    rw [itemsOf, framesOf_ok hnonempty, ih]
  | case5 e rest => rfl

/-- Putting items together fails with the first failure among them. -/
theorem failure?_eq (items : List Item) :
    Item.failure? items =
      match Response.join items with
      | .error e => some e
      | .ok _ => none := by
  induction items with
  | nil => rfl
  | cons i rest ih =>
    cases i with
    | error e => rfl
    | ok bytes =>
      have hfailure : Item.failure? (.ok bytes :: rest) = Item.failure? rest := rfl
      rw [hfailure, ih, Response.join]
      cases Response.join rest <;> rfl

/-- The trailers among the frames of items are those of the first failure. -/
theorem trailers_mem_framesOf {items : List Item} {fields : Headers} :
    .trailers fields ∈ framesOf items ↔
      ∃ e, Item.failure? items = some e ∧ e.trailers = fields := by
  rw [framesOf, List.mem_append]
  constructor
  · rintro (h | h)
    · obtain ⟨bytes, _, hframe⟩ := List.mem_map.1 h
      cases hframe
    · obtain ⟨e, he, hframe⟩ := Option.map_eq_some_iff.1 (Option.mem_toList.1 h)
      cases hframe
      exact ⟨e, he, rfl⟩
  · rintro ⟨e, he, rfl⟩
    right
    rw [he]
    exact List.mem_singleton_self _

end SendingLemmas

open SendingLemmas

/-! ## Frames -/

section Frames

variable {r : Response} {e : Failure}

/-- The recursion that sends a body makes the frames that its items tell. -/
theorem Response.frames_ofResponse (r : Response) : (Outgoing.ofResponse r).frames = r.wire := by
  obtain ⟨body, type⟩ := r
  cases body with
  | buffered bytes => rfl
  | stream signals => exact streamFrames_eq signals

theorem Response.octets_wire (r : Response) : r.wire.flatMap Frame.octets = r.data := by
  rw [← r.frames_ofResponse, r.octets_frames]

/-- Trailers are sent for the failure that collecting the body ends with. -/
theorem Response.trailers_mem_wire {fields : Headers} :
    .trailers fields ∈ r.wire ↔ ∃ e, r.collect = .error e ∧ e.trailers = fields := by
  obtain ⟨body, type⟩ := r
  cases body with
  | buffered bytes => simp [wire, collect]
  | stream signals =>
    have hcollect : (⟨.stream signals, type⟩ : Response).collect = join (itemsOf signals) := rfl
    refine trailers_mem_framesOf.trans ?_
    rw [failure?_eq, hcollect]
    cases join (itemsOf signals) <;> simp

/-- A body is collected if it brings no trailers, and then its frames carry it. -/
theorem Response.collect_eq_ok_iff {bytes : Bytes} :
    r.collect = .ok bytes ↔
      (∀ fields, .trailers fields ∉ r.wire) ∧ r.wire.flatMap Frame.octets = bytes := by
  rw [r.octets_wire]
  constructor
  · intro h
    refine ⟨fun fields hmem => ?_, r.data_of_collect h⟩
    obtain ⟨e, he, _⟩ := trailers_mem_wire.1 hmem
    rw [h] at he
    cases he
  · rintro ⟨hnone, hdata⟩
    cases hcollect : r.collect with
    | error e => exact absurd (trailers_mem_wire.2 ⟨e, hcollect, rfl⟩) (hnone _)
    | ok collected => rw [← hdata, r.data_of_collect hcollect]

/-- Trailers tell the failure that collecting the body ends with, but not whether it ends the
process. -/
theorem Response.trailers_mem_wire_iff :
    .trailers e.trailers ∈ r.wire ↔ ∃ e', r.collect = .error e' ∧ e'.Alike e := by
  rw [trailers_mem_wire]
  exact exists_congr fun e' => and_congr_right' Failure.trailers_eq_iff

end Frames

/-! ## Looks -/

namespace Outgoing

/-- What a look finds, and what it leaves to come. -/
theorem poll_cases (o : Outgoing) :
    (o.poll.1 = .pending ∧ o.poll.2.frames = o.frames ∧ o.poll.2.looksLeft < o.looksLeft) ∨
      (∃ f, o.poll.1 = .frame f ∧ o.frames = f :: o.poll.2.frames ∧
        o.poll.2.looksLeft < o.looksLeft) ∨
      (o.poll = (.ended, .done) ∧ o.frames = []) := by
  cases o with
  | full bytes => exact .inr (.inl ⟨.data bytes, rfl, rfl, Nat.one_pos⟩)
  | done => exact .inr (.inr ⟨rfl, rfl⟩)
  | stream signals =>
    simp only [poll, frames, looksLeft]
    fun_induction pollStream signals with
    | case1 => exact .inr (.inr ⟨rfl, rfl⟩)
    | case2 rest => exact .inl ⟨rfl, rfl, Nat.lt_succ_self _⟩
    | case3 rest ih =>
      -- An empty piece is passed over: the look goes on with one signal less.
      rcases ih with ⟨hpoll, hframes, hleft⟩ | ⟨f, hpoll, hframes, hleft⟩ | ⟨hpoll, hframes⟩
      · exact .inl ⟨hpoll, hframes, Nat.lt_succ_of_lt hleft⟩
      · exact .inr (.inl ⟨f, hpoll, hframes, Nat.lt_succ_of_lt hleft⟩)
      · exact .inr (.inr ⟨hpoll, hframes⟩)
    | case4 bytes rest hnonempty =>
      refine .inr (.inl ⟨.data bytes, rfl, ?_, Nat.lt_succ_self _⟩)
      rw [streamFrames]
      exact hnonempty
    | case5 e rest => exact .inr (.inl ⟨.trailers e.trailers, rfl, rfl, Nat.succ_pos _⟩)

theorem found_succ (looks : Nat) (o : Outgoing) :
    found (looks + 1) o = o.poll.1.frame?.toList ++ found looks o.poll.2 := by
  rw [found, polls]
  cases o.poll.1 <;> rfl

/-- No frame is lost: what was found and what is still to come is what was to come. -/
theorem found_frames (looks : Nat) (o : Outgoing) :
    found looks o ++ (after looks o).frames = o.frames := by
  induction looks generalizing o with
  | zero => rfl
  | succ looks ih =>
    rw [found_succ, after, List.append_assoc, ih]
    rcases poll_cases o with ⟨hpoll, hframes, _⟩ | ⟨f, hpoll, hframes, _⟩ | ⟨hpoll, hframes⟩
    · rw [hpoll, hframes]
      rfl
    · rw [hpoll, hframes]
      rfl
    · rw [hpoll, hframes]
      rfl

/-- A body at its end stays there. -/
theorem after_done (looks : Nat) : after looks .done = .done := by
  induction looks with
  | zero => rfl
  | succ looks ih => exact ih

theorem after_add (looks more : Nat) (o : Outgoing) :
    after (looks + more) o = after more (after looks o) := by
  induction looks generalizing o with
  | zero => rw [Nat.zero_add, after]
  | succ looks ih => rw [Nat.add_right_comm, after, ih, after]

theorem looksLeft_after (looks : Nat) (o : Outgoing) :
    (after looks o).looksLeft ≤ o.looksLeft - looks := by
  induction looks generalizing o with
  | zero => exact Nat.le_refl _
  | succ looks ih =>
    have hrest := ih o.poll.2
    rw [after]
    rcases poll_cases o with ⟨_, _, hleft⟩ | ⟨f, _, _, hleft⟩ | ⟨hpoll, _⟩
    · omega
    · omega
    · rw [hpoll, after_done]
      exact Nat.zero_le _

/-- Enough looks find all frames, and the next one finds the end. -/
theorem polls_complete {looks : Nat} {o : Outgoing} (h : o.looksLeft ≤ looks) :
    found looks o = o.frames ∧ (after looks o).poll = (.ended, .done) := by
  have hleft : (after looks o).looksLeft = 0 := by
    have hle := looksLeft_after looks o
    omega
  have hframes := found_frames looks o
  rcases poll_cases (after looks o) with ⟨_, _, hless⟩ | ⟨f, _, _, hless⟩ | ⟨hpoll, hnone⟩
  · omega
  · omega
  · rw [hnone, List.append_nil] at hframes
    exact ⟨hframes, hpoll⟩

/-- What looks find, apart from waiting, are the frames in order and then nothing but the end. -/
theorem polls_prefix (looks : Nat) (o : Outgoing) :
    (polls looks o).filter (· ≠ .pending) <+:
      o.frames.map .frame ++ List.replicate looks .ended := by
  induction looks generalizing o with
  | zero => exact List.nil_prefix
  | succ looks ih =>
    have hrest := ih o.poll.2
    have hmore : List.replicate looks Poll.ended <+: List.replicate (looks + 1) .ended :=
      ⟨[.ended], (List.replicate_succ' ..).symm⟩
    rw [polls]
    rcases poll_cases o with ⟨hpoll, hframes, _⟩ | ⟨f, hpoll, hframes, _⟩ | ⟨hpoll, hframes⟩
    · rw [hpoll, List.filter_cons_of_neg (by simp)]
      rw [hframes] at hrest
      exact hrest.trans ((List.prefix_append_right_inj _).2 hmore)
    · rw [hpoll, hframes, List.filter_cons_of_pos (by simp), List.map_cons, List.cons_append]
      refine (List.prefix_cons_inj _).2 (hrest.trans ?_)
      exact (List.prefix_append_right_inj _).2 hmore
    · rw [hpoll] at hrest
      rw [hpoll, hframes, List.filter_cons_of_pos (by simp), List.replicate_succ]
      exact (List.prefix_cons_inj _).2 hrest

/-- A look that is told the end, before it or by it, is followed by no other one. -/
theorem poll_of_ended {looks later : Nat} {o : Outgoing} (hle : looks ≤ later)
    (h : (after looks o).isEnd = true ∨ (after looks o).poll.1 = .ended) :
    (after later o).poll = (.ended, .done) := by
  have hpoll : (after looks o).poll = (.ended, .done) := by
    rcases h with h | h
    · cases hafter : after looks o with
      | done => rfl
      | full bytes | stream signals =>
        rw [hafter] at h
        cases h
    · rcases poll_cases (after looks o) with ⟨hpoll, _⟩ | ⟨f, hpoll, _⟩ | ⟨hpoll, _⟩
      · rw [h] at hpoll
        cases hpoll
      · rw [h] at hpoll
        cases hpoll
      · exact hpoll
  obtain ⟨more, rfl⟩ := Nat.exists_eq_add_of_le hle
  rw [after_add]
  cases more with
  | zero => exact hpoll
  | succ more =>
    rw [after, hpoll, after_done]
    rfl

/-- The exact size is the one of the frames that are still to come. -/
theorem exactSize?_eq_some {o : Outgoing} {size : Nat} (h : o.exactSize? = some size) :
    size = (o.frames.flatMap Frame.octets).length := by
  cases o with
  | done =>
    cases h
    rfl
  | full bytes =>
    cases h
    simp [frames, Frame.octets]
  | stream signals => cases h

section Behind

variable {e : Failure} {behind : List Signal}

theorem pollStream_behind (front : List Signal) :
    (pollStream (front ++ .item (.error e) :: behind)).2 = .done ∨
      ∃ rest, rest <:+ front ∧ (pollStream (front ++ .item (.error e) :: behind)).2 =
        .stream (rest ++ .item (.error e) :: behind) := by
  induction front with
  | nil => exact .inl rfl
  | cons s front ih =>
    have hfront : front <:+ s :: front := List.suffix_cons s front
    match s with
    | .pending => exact .inr ⟨front, hfront, rfl⟩
    | .item (.error e') => exact .inl rfl
    | .item (.ok (b :: bytes)) => exact .inr ⟨front, hfront, rfl⟩
    | .item (.ok []) =>
      rcases ih with hdone | ⟨rest, hrest, hpoll⟩
      · exact .inl hdone
      · exact .inr ⟨rest, hrest.trans hfront, hpoll⟩

/-- What stands behind a failure is not taken by any look: it stays there until the body is done. -/
theorem after_behind (looks : Nat) (front : List Signal) :
    after looks (.stream (front ++ .item (.error e) :: behind)) = .done ∨
      ∃ rest, rest <:+ front ∧ after looks (.stream (front ++ .item (.error e) :: behind)) =
        .stream (rest ++ .item (.error e) :: behind) := by
  induction looks generalizing front with
  | zero => exact .inr ⟨front, List.suffix_refl front, rfl⟩
  | succ looks ih =>
    rw [after, poll]
    rcases pollStream_behind front with hdone | ⟨rest, hrest, hpoll⟩
    · rw [hdone]
      exact .inl (after_done looks)
    · rw [hpoll]
      rcases ih rest with hdone | ⟨last, hlast, hafter⟩
      · exact .inl hdone
      · exact .inr ⟨last, hlast.trans hrest, hafter⟩

end Behind

end Outgoing

/-! ## Posts -/

/-- The post of a response sends its body, and has declared the trailers that the body may end
with. -/
theorem Client.success_body {c : Client} {id : String} {r : Response} {post : Request}
    (h : c.success id r = .ok post) :
    post.body = Outgoing.ofResponse r ∧ ∀ fields, .trailers fields ∈ r.wire →
      (Request.trailerHeader, Bytes.ofText (", ".intercalate (fields.map (·.1)))) ∈
        post.headers := by
  by_cases htype : Header.isValue (Bytes.ofText r.effectiveType) = true
  · simp only [Client.success, if_pos htype] at h
    obtain ⟨_, _, hheaders, hbody⟩ := make_parts h
    refine ⟨hbody, fun fields hfields => ?_⟩
    obtain ⟨e, he, rfl⟩ := Response.trailers_mem_wire.1 hfields
    -- Only a stream can end with a failure.
    obtain ⟨body, type⟩ := r
    cases body with
    | buffered bytes => cases he
    | stream signals =>
      rw [hheaders, Failure.trailers_eq]
      exact List.mem_cons_of_mem _ (List.mem_cons_of_mem _ List.mem_cons_self)
  · simp only [Client.success, if_neg htype] at h
    cases h

/-! ## Responses -/

/-- What is sent agrees with what was produced: the looks at a body find its frames in order, then
only the end, and all of them if there are enough looks; nothing behind a failure is taken; a body
says that it is at its end only if it is, and an exact size is the number of octets that are still
found; collecting the body gives the octets that are sent or the failure that the trailers tell,
which do not tell whether the process ends; and a post has declared the trailers of its body. -/
theorem Response.sends_what_it_collects (r : Response) :
    (∀ looks, ((Outgoing.ofResponse r).polls looks).filter (· ≠ .pending) <+:
      r.wire.map .frame ++ List.replicate looks .ended) ∧
    (∀ looks ≥ r.toSignals.length, (Outgoing.ofResponse r).found looks = r.wire) ∧
    (∀ front e behind, r.body = .stream (front ++ .item (.error e) :: behind) → ∀ looks,
      (Outgoing.ofResponse r).after looks = .done ∨
        ∃ rest, rest <:+ front ∧
          (Outgoing.ofResponse r).after looks = .stream (rest ++ .item (.error e) :: behind)) ∧
    (∀ looks, ((Outgoing.ofResponse r).after looks).isEnd = true ∨
        ((Outgoing.ofResponse r).after looks).poll.1 = .ended →
      ∀ later ≥ looks, ((Outgoing.ofResponse r).after later).poll = (.ended, .done)) ∧
    (∀ looks size, ((Outgoing.ofResponse r).after looks).exactSize? = some size →
      ∀ more ≥ r.toSignals.length,
        size = ((((Outgoing.ofResponse r).after looks).found more).flatMap Frame.octets).length) ∧
    (∀ bytes, r.collect = .ok bytes ↔
      (∀ fields, .trailers fields ∉ r.wire) ∧ r.wire.flatMap Frame.octets = bytes) ∧
    (∀ e, r.collect = .error e → .trailers e.trailers ∈ r.wire) ∧
    (∀ e, .trailers e.trailers ∈ r.wire ↔ ∃ e', r.collect = .error e' ∧ e'.Alike e) ∧
    (∀ (c : Client) id post, c.success id r = .ok post →
      post.body = Outgoing.ofResponse r ∧ ∀ fields, .trailers fields ∈ r.wire →
        (Request.trailerHeader, Bytes.ofText (", ".intercalate (fields.map (·.1)))) ∈
          post.headers) := by
  have hleft : (Outgoing.ofResponse r).looksLeft = r.toSignals.length := by
    obtain ⟨body, type⟩ := r
    cases body <;> rfl
  refine ⟨fun looks => ?_, fun looks hlooks => ?_, fun front e behind hbody looks => ?_,
    fun looks hend later hlater => Outgoing.poll_of_ended hlater hend,
    fun looks size hsize more hmore => ?_, fun bytes => collect_eq_ok_iff,
    fun e he => trailers_mem_wire.2 ⟨e, he, rfl⟩, fun e => trailers_mem_wire_iff,
    fun c id post hpost => Client.success_body hpost⟩
  · rw [← r.frames_ofResponse]
    exact Outgoing.polls_prefix looks _
  · rw [← r.frames_ofResponse]
    exact (Outgoing.polls_complete (hleft ▸ hlooks)).1
  · have hstream : Outgoing.ofResponse r = .stream (front ++ .item (.error e) :: behind) := by
      rw [Outgoing.ofResponse, hbody]
    rw [hstream]
    exact Outgoing.after_behind looks front
  · have henough : ((Outgoing.ofResponse r).after looks).looksLeft ≤ more := by
      have hafter := Outgoing.looksLeft_after looks (Outgoing.ofResponse r)
      omega
    rw [(Outgoing.polls_complete henough).1]
    exact Outgoing.exactSize?_eq_some hsize

/-- A stream that breaks off with a failure that ends the process has the trailers of one that does
not. -/
theorem Response.trailers_hide_exit :
    ¬ ((Response.ofSignals [.item (.error ⟨"T", "m", none, true⟩)]).collect =
        .error ⟨"T", "m", none, false⟩ ↔
      .frame (.trailers (⟨"T", "m", none, false⟩ : Failure).trailers) ∈
        (Outgoing.ofResponse (.ofSignals [.item (.error ⟨"T", "m", none, true⟩)])).polls 1) := by
  intro h
  have hcollect := h.2 (List.mem_singleton.2 rfl)
  cases hcollect

end FunctionWorker
