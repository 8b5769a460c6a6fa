import FinanceGateway.Dispatch.Plan
import Mathlib

/-!
# Partial runs of plans

`Plan.Reaches plan turns rest` is a partial run: after the questions and requests of `turns`, with
what came back for each, the plan goes on as `rest`. Nothing is assumed of what comes back, so a
statement about all partial runs holds for every behaviour of the outside, also for one that never
answers. `Plan.sent` is what has gone out in a partial run, the requests that still wait included.
`reaches_bind_iff` cuts the partial runs of a sequence of two plans in two, and an outside that
always answers leads a run to its end (`reaches_run`). `Plan.OnlySends` bounds what a plan can send
at all, and is what the cases of a handler are checked for; `Plan.SendsAtMost` bounds how much it
sends.
-/

namespace FinanceGateway

/-- One turn of a plan and the outside: what went out and what came back. -/
inductive Turn
  | asked (provider : Nat) (answer : TokenAnswer)
  | sent (request : Outgoing) (reply : Reply)
  | sentAll (requests : List Outgoing) (arrivals : List Arrival)

/-- The requests of a turn. -/
def Turn.requests : Turn → List Outgoing
  | asked .. => []
  | sent request _ => [request]
  | sentAll requests _ => requests

/-- What comes back in a turn is what the outside gives. -/
def Turn.IsGivenBy (outside : Plan.Outside Id) : Turn → Prop
  | asked provider answer => answer = outside.token provider
  | sent request reply => reply = outside.reply request
  | sentAll requests arrivals => arrivals = Plan.replies outside 0 requests

namespace Plan

variable {α β : Type}

/-- After the turns the plan goes on as `rest`. -/
inductive Reaches : Plan α → List Turn → Plan α → Prop
  | start {plan} : Reaches plan [] plan
  | ask {provider next answer turns rest} :
    Reaches (next answer) turns rest →
      Reaches (.ask provider next) (.asked provider answer :: turns) rest
  | send {request next reply turns rest} :
    Reaches (next reply) turns rest →
      Reaches (.send request next) (.sent request reply :: turns) rest
  | sendAll {requests next arrivals turns rest} :
    Reaches (next arrivals) turns rest →
      Reaches (.sendAll requests next) (.sentAll requests arrivals :: turns) rest

/-- The requests that a plan has out while it waits. -/
def waiting : Plan α → List Outgoing
  | done _ => []
  | ask .. => []
  | send request _ => [request]
  | sendAll requests _ => requests

/-- Whether a plan has more to do. -/
def IsUnfinished : Plan α → Prop
  | done _ => False
  | _ => True

/-- What has gone out in a partial run. -/
def sent (turns : List Turn) (rest : Plan α) : List Outgoing :=
  turns.flatMap Turn.requests ++ rest.waiting

/-! ## Runs of a sequence -/

@[simp] theorem done_bind (value : α) (f : α → Plan β) : (done value).bind f = f value := rfl

/-- What went out before and after a cut of the turns. -/
theorem sent_append (before after : List Turn) (rest : Plan α) :
    sent (before ++ after) rest = before.flatMap Turn.requests ++ sent after rest := by
  simp [sent]

/-- A plan that is done has no further turn. -/
theorem reaches_done_iff {value : α} {turns : List Turn} {rest : Plan α} :
    (done value).Reaches turns rest ↔ turns = [] ∧ rest = done value := by
  constructor
  · intro h
    cases h
    exact ⟨rfl, rfl⟩
  · rintro ⟨rfl, rfl⟩
    exact .start

/-- One partial run after another. -/
theorem Reaches.trans {plan middle rest : Plan α} {before after : List Turn}
    (h : plan.Reaches before middle) (h' : middle.Reaches after rest) :
    plan.Reaches (before ++ after) rest := by
  induction h with
  | start => exact h'
  | ask _ ih => exact .ask (ih h')
  | send _ ih => exact .send (ih h')
  | sendAll _ ih => exact .sendAll (ih h')

/-- A partial run of the first plan is one of the sequence. -/
theorem Reaches.bind {plan rest : Plan α} {turns : List Turn} (h : plan.Reaches turns rest)
    (f : α → Plan β) : (plan.bind f).Reaches turns (rest.bind f) := by
  induction h with
  | start => exact .start
  | ask _ ih => exact .ask ih
  | send _ ih => exact .send ih
  | sendAll _ ih => exact .sendAll ih

/-- While the first plan of a sequence is unfinished, so is the sequence. -/
theorem IsUnfinished.bind {plan : Plan α} (h : plan.IsUnfinished) (f : α → Plan β) :
    (plan.bind f).IsUnfinished := by
  cases plan with
  | done => exact h.elim
  | ask | send | sendAll => trivial

/-- While the first plan of a sequence is unfinished, its requests are those that wait. -/
theorem IsUnfinished.waiting_bind {plan : Plan α} (h : plan.IsUnfinished) (f : α → Plan β) :
    (plan.bind f).waiting = plan.waiting := by
  cases plan with
  | done => exact h.elim
  | ask | send | sendAll => rfl

/-- Sequences of three plans. -/
theorem bind_assoc {γ : Type} (plan : Plan α) (f : α → Plan β) (g : β → Plan γ) :
    (plan.bind f).bind g = plan.bind fun value => (f value).bind g := by
  induction plan with
  | done value => rfl
  | ask provider next ih => exact congrArg (Plan.ask provider) (funext ih)
  | send request next ih => exact congrArg (Plan.send request) (funext ih)
  | sendAll requests next ih => exact congrArg (Plan.sendAll requests) (funext ih)

/-- A partial run of a sequence either stops within the first plan, or runs through it and goes on
with the second. -/
theorem reaches_bind_iff {plan : Plan α} {f : α → Plan β} {turns : List Turn} {rest : Plan β} :
    (plan.bind f).Reaches turns rest ↔
      (∃ stop, plan.Reaches turns stop ∧ stop.IsUnfinished ∧ rest = stop.bind f) ∨
      ∃ value before after, turns = before ++ after ∧ plan.Reaches before (done value) ∧
        (f value).Reaches after rest := by
  constructor
  · intro h
    induction plan generalizing turns with
    | done value => exact .inr ⟨value, [], turns, rfl, .start, h⟩
    | ask provider next ih =>
      cases h with
      | start => exact .inl ⟨_, .start, trivial, rfl⟩
      | ask h =>
        rcases ih _ h with ⟨stop, hstop, hu, rfl⟩ | ⟨value, before, after, rfl, hv, hf⟩
        · exact .inl ⟨stop, .ask hstop, hu, rfl⟩
        · exact .inr ⟨value, _ :: before, after, rfl, .ask hv, hf⟩
    | send request next ih =>
      cases h with
      | start => exact .inl ⟨_, .start, trivial, rfl⟩
      | send h =>
        rcases ih _ h with ⟨stop, hstop, hu, rfl⟩ | ⟨value, before, after, rfl, hv, hf⟩
        · exact .inl ⟨stop, .send hstop, hu, rfl⟩
        · exact .inr ⟨value, _ :: before, after, rfl, .send hv, hf⟩
    | sendAll requests next ih =>
      cases h with
      | start => exact .inl ⟨_, .start, trivial, rfl⟩
      | sendAll h =>
        rcases ih _ h with ⟨stop, hstop, hu, rfl⟩ | ⟨value, before, after, rfl, hv, hf⟩
        · exact .inl ⟨stop, .sendAll hstop, hu, rfl⟩
        · exact .inr ⟨value, _ :: before, after, rfl, .sendAll hv, hf⟩
  · rintro (⟨stop, hstop, -, rfl⟩ | ⟨value, before, after, rfl, hv, hf⟩)
    · exact hstop.bind f
    · exact (hv.bind f).trans hf

/-- A complete run of a sequence runs through both plans. -/
theorem reaches_bind_done_iff {plan : Plan α} {f : α → Plan β} {turns : List Turn} {result : β} :
    (plan.bind f).Reaches turns (done result) ↔
      ∃ value before after, turns = before ++ after ∧ plan.Reaches before (done value) ∧
        (f value).Reaches after (done result) := by
  rw [reaches_bind_iff]
  refine or_iff_right_of_imp ?_
  rintro ⟨stop, -, hu, heq⟩
  have := hu.bind f
  rw [← heq] at this
  exact this.elim

/-- Where nothing but a result follows a plan, what has gone out is what the plan has sent. -/
theorem Reaches.of_bind_done {plan : Plan α} {f : α → Plan β} {turns : List Turn} {rest : Plan β}
    (hf : ∀ value, ∃ result, f value = done result) (h : (plan.bind f).Reaches turns rest) :
    ∃ stop, plan.Reaches turns stop ∧ sent turns stop = sent turns rest := by
  rcases reaches_bind_iff.1 h with ⟨stop, hstop, hu, rfl⟩ | ⟨value, before, after, rfl, hv, h⟩
  · exact ⟨stop, hstop, congrArg (_ ++ ·) (hu.waiting_bind f).symm⟩
  · obtain ⟨result, hresult⟩ := hf value
    rw [hresult] at h
    obtain ⟨rfl, rfl⟩ := reaches_done_iff.1 h
    rw [List.append_nil]
    exact ⟨_, hv, rfl⟩

/-- Whatever the outside gives, a plan runs to its end with it. -/
theorem reaches_run (outside : Outside Id) (plan : Plan α) :
    ∃ turns, (∀ turn ∈ turns, turn.IsGivenBy outside) ∧
      plan.Reaches turns (done (Id.run (plan.run outside))) := by
  induction plan with
  | done value => exact ⟨[], nofun, .start⟩
  | ask provider next ih =>
    obtain ⟨turns, hgiven, h⟩ := ih (outside.token provider)
    exact ⟨.asked provider _ :: turns, List.forall_mem_cons.2 ⟨rfl, hgiven⟩, .ask h⟩
  | send request next ih =>
    obtain ⟨turns, hgiven, h⟩ := ih (outside.reply request)
    exact ⟨.sent request _ :: turns, List.forall_mem_cons.2 ⟨rfl, hgiven⟩, .send h⟩
  | sendAll requests next ih =>
    obtain ⟨turns, hgiven, h⟩ := ih (replies outside 0 requests)
    exact ⟨.sentAll requests _ :: turns, List.forall_mem_cons.2 ⟨rfl, hgiven⟩, .sendAll h⟩

/-! ## Bounds on what is sent -/

/-- Every request that the plan can send, whatever comes back, is of a kind. -/
def OnlySends (kind : Outgoing → Prop) : Plan α → Prop
  | done _ => True
  | ask _ next => ∀ answer, (next answer).OnlySends kind
  | send request next => kind request ∧ ∀ reply, (next reply).OnlySends kind
  | sendAll requests next =>
    (∀ request ∈ requests, kind request) ∧ ∀ arrivals, (next arrivals).OnlySends kind

variable {kind : Outgoing → Prop}

/-- A plan that sends requests of a kind sends requests of any wider kind. -/
theorem OnlySends.imp {kind' : Outgoing → Prop} {plan : Plan α} (h : plan.OnlySends kind)
    (hkind : ∀ request, kind request → kind' request) : plan.OnlySends kind' := by
  induction plan with
  | done => trivial
  | ask provider next ih => exact fun answer => ih answer (h answer)
  | send request next ih => exact ⟨hkind _ h.1, fun reply => ih reply (h.2 reply)⟩
  | sendAll requests next ih =>
    exact ⟨fun request hmem => hkind _ (h.1 request hmem),
      fun arrivals => ih arrivals (h.2 arrivals)⟩

/-- A sequence sends what its parts send. -/
theorem OnlySends.bind {plan : Plan α} {f : α → Plan β} (h : plan.OnlySends kind)
    (hf : ∀ value, (f value).OnlySends kind) : (plan.bind f).OnlySends kind := by
  induction plan with
  | done value => exact hf value
  | ask provider next ih => exact fun answer => ih answer (h answer)
  | send request next ih => exact ⟨h.1, fun reply => ih reply (h.2 reply)⟩
  | sendAll requests next ih => exact ⟨h.1, fun arrivals => ih arrivals (h.2 arrivals)⟩

/-- What has gone out in a partial run is of the kind that the plan sends. -/
theorem OnlySends.of_sent {plan rest : Plan α} {turns : List Turn} (h : plan.OnlySends kind)
    (hr : plan.Reaches turns rest) : ∀ request ∈ sent turns rest, kind request := by
  induction hr with
  | @start plan =>
    intro request hmem
    cases plan with
    | done | ask => cases hmem
    | send =>
      rw [List.mem_singleton.1 hmem]
      exact h.1
    | sendAll => exact h.1 request hmem
  | ask _ ih => exact ih (h _)
  | send _ ih =>
    intro request hmem
    rcases List.mem_cons.1 hmem with rfl | hmem
    · exact h.1
    · exact ih (h.2 _) request hmem
  | sendAll _ ih =>
    intro request hmem
    rw [← List.singleton_append, sent_append, List.mem_append] at hmem
    rcases hmem with hmem | hmem
    · exact h.1 request (by simpa [Turn.requests] using hmem)
    · exact ih (h.2 _) request hmem

/-- However it goes, the plan sends no more requests than that. -/
def SendsAtMost : Nat → Plan α → Prop
  | _, done _ => True
  | n, ask _ next => ∀ answer, (next answer).SendsAtMost n
  | n, send _ next => 0 < n ∧ ∀ reply, (next reply).SendsAtMost (n - 1)
  | n, sendAll requests next =>
    requests.length ≤ n ∧ ∀ arrivals, (next arrivals).SendsAtMost (n - requests.length)

/-- What has gone out in a partial run is no more than the plan sends at all. -/
theorem SendsAtMost.length_sent {n : Nat} {plan rest : Plan α} {turns : List Turn}
    (h : plan.SendsAtMost n) (hr : plan.Reaches turns rest) : (sent turns rest).length ≤ n := by
  induction hr generalizing n with
  | @start plan =>
    cases plan with
    | done | ask => exact Nat.zero_le n
    | send | sendAll => exact h.1
  | ask _ ih => exact ih (h _)
  | send _ ih =>
    have hfirst := h.1
    have hothers := ih (h.2 _)
    simp only [sent, List.flatMap_cons, Turn.requests, List.length_append, List.length_cons,
      List.length_nil] at *
    omega
  | sendAll _ ih =>
    have hfirst := h.1
    have hothers := ih (h.2 _)
    simp only [sent, List.flatMap_cons, Turn.requests, List.length_append] at *
    omega

/-- A plan that sends no more than that sends no more than any greater number. -/
theorem SendsAtMost.mono {n m : Nat} {plan : Plan α} (h : plan.SendsAtMost n) (hle : n ≤ m) :
    plan.SendsAtMost m := by
  induction plan generalizing n m with
  | done value => trivial
  | ask provider next ih => exact fun answer => ih answer (h answer) hle
  | send request next ih =>
    exact ⟨h.1.trans_le hle, fun reply => ih reply (h.2 reply) (Nat.sub_le_sub_right hle _)⟩
  | sendAll requests next ih =>
    exact ⟨h.1.trans hle, fun arrivals => ih arrivals (h.2 arrivals) (Nat.sub_le_sub_right hle _)⟩

/-- A sequence sends no more than its parts together. -/
theorem SendsAtMost.bind {n m : Nat} {plan : Plan α} {f : α → Plan β} (h : plan.SendsAtMost n)
    (hf : ∀ value, (f value).SendsAtMost m) : (plan.bind f).SendsAtMost (n + m) := by
  induction plan generalizing n with
  | done value => exact (hf value).mono (Nat.le_add_left m n)
  | ask provider next ih => exact fun answer => ih answer (h answer)
  | send request next ih =>
    refine ⟨Nat.add_pos_left h.1 m, fun reply => ?_⟩
    rw [Nat.sub_add_comm h.1]
    exact ih reply (h.2 reply)
  | sendAll requests next ih =>
    refine ⟨h.1.trans (Nat.le_add_right n m), fun arrivals => ?_⟩
    rw [Nat.sub_add_comm h.1]
    exact ih arrivals (h.2 arrivals)

end Plan

end FinanceGateway
