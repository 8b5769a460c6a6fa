import FinanceGateway.Proofs.App.SignedOut

/-!
# Answers of success without content

A blank body is read as null, in place of a text that spells it. Both readings give the same for
every form in which an answer is declared, since what these make of null does not depend on where
it stands (`Json.Codec.ReadsNullAs`): the unit value and any JSON take it, while records and lists
refuse it, whatever defaults the fields of a record have. So a blank answer of success is a value of
the one service that answers nothing and a fault of every other
(`blank_success_is_read_as_null`), and it signs nobody in.
-/

namespace FinanceGateway

open Json (Codec Decoded Record failure)

/-! ## Reading null -/

namespace Json.Codec

variable {α σ : Type}

/-- Null is read with this outcome, from a text as from a value. -/
def ReadsNullAs (c : Codec α) (outcome : Decoded α) : Prop :=
  ∀ place, c.decode place .null = outcome

theorem readsNullAs_unit : unit.ReadsNullAs (.ok ()) := fun _ => rfl

theorem readsNullAs_any : any.ReadsNullAs (.ok .null) := fun _ => by
  simp only [any, decodeAny]

theorem readsNullAs_list (c : Codec α) :
    c.list.ReadsNullAs (failure (.mismatch .null "a sequence")) := fun _ => rfl

theorem readsNullAs_record (r : Record σ) :
    r.codec.ReadsNullAs (failure (.mismatch .null r.expected)) := fun _ => rfl

/-- The text of null is read as null is, without any rest. -/
theorem decodeText_null (c : Codec α) :
    c.decodeText (Utf8.encode "null") = c.decode ⟨.text, depthLimit⟩ .null := by
  have hdraft : Draft.ofBytes (Utf8.encode "null") = (.null, some []) := by rfl
  rw [decodeText, hdraft]
  cases hnull : c.decode ⟨.text, depthLimit⟩ .null with
  | ok value =>
    simp only [hnull]
    rfl
  | error fault => simp only [hnull]

end Json.Codec

namespace Service

/-- The service whose answer is nothing takes null, and every other service refuses it. -/
theorem readsNullAs (s : Service) :
    ((∃ deletion, s = .deleteTransactions deletion) ∧ ∃ value, s.codec.ReadsNullAs (.ok value)) ∨
      (∀ deletion, s ≠ .deleteTransactions deletion) ∧
        ∃ expected, s.codec.ReadsNullAs (failure (.mismatch .null expected)) := by
  cases s with
  | deleteTransactions deletion => exact .inl ⟨⟨deletion, rfl⟩, (), Codec.readsNullAs_unit⟩
  | listAccounts | listGoals | uploadStatement | listSms | listBanks | listCategories
  | listMerchants | listTransactions =>
    exact .inr ⟨nofun, _, Codec.readsNullAs_list _⟩
  | _ => exact .inr ⟨nofun, _, Codec.readsNullAs_record _⟩

end Service

/-! ## Answers that stand for null -/

variable {α : Type} {base : String} {provider : Option Provider} {call : Call} {codec : Codec α}
  {outcome : Decoded α} {heard turns : List Turn} {request : Outgoing} {status : Nat}
  {body body' : Bytes} {result : Except ApiError α}

/-- A body that stands for null: it has ASCII blanks at most, or spells null. -/
def StandsForNull (body : Bytes) : Prop :=
  body.all Text.isAsciiBlank = true ∨ body = Utf8.encode "null"

/-- A body that stands for null has the outcome of null. -/
theorem Json.Codec.ReadsNullAs.decodeBody (h : codec.ReadsNullAs outcome)
    (hbody : StandsForNull body) : Call.decodeBody codec body = outcome.mapError .decode := by
  rcases hbody with hblank | rfl
  · have hvalue : codec.decodeJson .null = outcome := h _
    rw [Call.decodeBody, if_pos hblank, hvalue]
  · have hspelled : (Utf8.encode "null").all Text.isAsciiBlank = false := by decide +kernel
    rw [Call.decodeBody, hspelled, if_neg Bool.false_ne_true, Codec.decodeText_null, h]

/-- An answer of success that stands for null has the outcome of null. -/
theorem Json.Codec.ReadsNullAs.result_eq (h : codec.ReadsNullAs outcome)
    (hstatus : Http.isSuccess status = true) (hbody : StandsForNull body) (url : Url) :
    call.result codec url (.answer status body) = outcome.mapError .decode := by
  rw [Call.result, if_pos hstatus, h.decodeBody hbody]

/-- A call that gets such an answer ends with the outcome of null. -/
theorem Json.Codec.ReadsNullAs.eq_of_answered (h : codec.ReadsNullAs outcome)
    (hstatus : Http.isSuccess status = true) (hbody : StandsForNull body)
    (hcame : Answered turns status body)
    (hrun : (execute base provider call codec).Reaches turns (.done result)) :
    result = outcome.mapError .decode := by
  obtain ⟨url, rfl⟩ := (execute_reaches_done_iff.1 hrun).of_answered hcame
  exact h.result_eq hstatus hbody url

/-- Two answers that are read alike are alike to a call. -/
theorem Ends.of_read_alike
    (h : Ends base provider call codec (heard ++ [.sent request (.answer status body)]) result)
    (halike : call.result codec request.url (.answer status body) =
      call.result codec request.url (.answer status body')) :
    Ends base provider call codec (heard ++ [.sent request (.answer status body')]) result := by
  have hcame : Answered (heard ++ [.sent request (.answer status body)]) status body :=
    ⟨request, List.mem_append_right _ (.head _)⟩
  obtain ⟨path, before, token, sent, hpath, htells, hrequest, hs, hturns, rfl⟩ :=
    h.exists_request hcame
  obtain ⟨rfl, hlast⟩ := List.append_inj' hturns rfl
  cases hlast
  rw [halike]
  exact .replied _ hpath htells hrequest hs

/-- Two answers of success that stand for null have the same result. -/
theorem Json.Codec.ReadsNullAs.reaches_iff (h : codec.ReadsNullAs outcome)
    (hstatus : Http.isSuccess status = true) (hbody : StandsForNull body)
    (hbody' : StandsForNull body') :
    (execute base provider call codec).Reaches (heard ++ [.sent request (.answer status body)])
        (.done result) ↔
      (execute base provider call codec).Reaches
        (heard ++ [.sent request (.answer status body')]) (.done result) := by
  have halike : call.result codec request.url (.answer status body) =
      call.result codec request.url (.answer status body') :=
    (h.result_eq hstatus hbody _).trans (h.result_eq hstatus hbody' _).symm
  rw [execute_reaches_done_iff, execute_reaches_done_iff]
  exact ⟨fun h => h.of_read_alike halike, fun h => h.of_read_alike halike.symm⟩

/-- What a service makes of such an answer: the one that answers nothing has a value, and every
other refuses null. -/
theorem Service.of_standsForNull {s : Service} {result : Except ApiError s.Answer}
    (hstatus : Http.isSuccess status = true) (hbody : StandsForNull body)
    (hcame : Answered turns status body)
    (hrun : (s.execute base provider).Reaches turns (.done result)) :
    ((∃ value, result = .ok value) ↔ ∃ deletion, s = .deleteTransactions deletion) ∧
      ((∀ deletion, s ≠ .deleteTransactions deletion) →
        ∃ expected, result = .error (.decode ⟨[], .mismatch .null expected⟩)) := by
  obtain ⟨call, hcall, -⟩ := s.exists_call
  rw [Service.execute_eq hcall] at hrun
  rcases s.readsNullAs with ⟨⟨deletion, hs⟩, value, hreads⟩ | ⟨hother, expected, hreads⟩
  · have hresult := hreads.eq_of_answered hstatus hbody hcame hrun
    exact ⟨iff_of_true ⟨value, hresult⟩ ⟨deletion, hs⟩, fun hnone => absurd hs (hnone deletion)⟩
  · have hresult := hreads.eq_of_answered hstatus hbody hcame hrun
    refine ⟨iff_of_false ?_ fun ⟨deletion, hs⟩ => hother deletion hs, fun _ => ⟨expected, hresult⟩⟩
    rintro ⟨value, hvalue⟩
    cases hvalue.symm.trans hresult

/-- An answer of success that stands for null makes no session. -/
theorem Validator.resolve_of_standsForNull {cookieName : String} {headers : Headers}
    {session : Option Session} (hbody : StandsForNull body) (hcame : Answered turns status body)
    (hrun : ((Validator.remote base).resolve headers cookieName).Reaches turns (.done session)) :
    session = none := by
  cases session with
  | none => rfl
  | some session =>
    obtain ⟨-, hvalid⟩ := Validator.resolve_eq_some hrun
    obtain ⟨profile, h, hverdict⟩ := Validator.remote_reaches_done_iff.1 hvalid
    obtain ⟨-, value, hvalue⟩ :=
      (Validator.session_of_answer_iff h hcame).1 ⟨session, hverdict.symm⟩
    have hrefused := (Codec.readsNullAs_record Profile.record).decodeBody hbody
    cases hvalue.symm.trans hrefused

/-- To every service an answer of success without content is the same as one that spells null. With
either, the service that answers nothing has a value, and every other ends with a fault that names
null; whatever call is answered, any JSON is null and the unit value is there, while every record
and every list is refused, with no default put in its place; and no session ever comes of it. -/
theorem blank_success_is_read_as_null (hstatus : Http.isSuccess status = true)
    (hblank : body.all Text.isAsciiBlank = true) :
    (∀ (s : Service) base provider heard request result,
      (s.execute base provider).Reaches (heard ++ [.sent request (.answer status body)])
          (.done result) ↔
        (s.execute base provider).Reaches
          (heard ++ [.sent request (.answer status (Utf8.encode "null"))]) (.done result)) ∧
    ∀ said, said = body ∨ said = Utf8.encode "null" →
      ∀ turns, Answered turns status said →
      (∀ (s : Service) base provider result,
        (s.execute base provider).Reaches turns (.done result) →
        ((∃ value, result = .ok value) ↔ ∃ deletion, s = .deleteTransactions deletion) ∧
        ((∀ deletion, s ≠ .deleteTransactions deletion) →
          ∃ expected, result = .error (.decode ⟨[], .mismatch .null expected⟩))) ∧
      (∀ base provider call result,
        (execute base provider call Codec.any).Reaches turns (.done result) →
        result = .ok .null) ∧
      (∀ base provider call result,
        (execute base provider call Codec.unit).Reaches turns (.done result) →
        result = .ok ()) ∧
      (∀ {σ : Type} (r : Record σ) base provider call result,
        (execute base provider call r.codec).Reaches turns (.done result) →
        result = .error (.decode ⟨[], .mismatch .null r.expected⟩)) ∧
      (∀ {β : Type} (c : Codec β) base provider call result,
        (execute base provider call c.list).Reaches turns (.done result) →
        result = .error (.decode ⟨[], .mismatch .null "a sequence"⟩)) ∧
      ∀ base headers cookieName session,
        ((Validator.remote base).resolve headers cookieName).Reaches turns (.done session) →
        session = none := by
  refine ⟨fun s base provider heard request result => ?_, fun said hsaid turns hcame => ?_⟩
  · obtain ⟨call, hcall, -⟩ := s.exists_call
    rw [Service.execute_eq hcall]
    rcases s.readsNullAs with ⟨-, value, hreads⟩ | ⟨-, expected, hreads⟩
    · exact hreads.reaches_iff hstatus (.inl hblank) (.inr rfl)
    · exact hreads.reaches_iff hstatus (.inl hblank) (.inr rfl)
  · have hbody : StandsForNull said := hsaid.imp_left fun h => by rwa [h]
    exact ⟨fun s base provider result => Service.of_standsForNull hstatus hbody hcame,
      fun base provider call result => Codec.readsNullAs_any.eq_of_answered hstatus hbody hcame,
      fun base provider call result => Codec.readsNullAs_unit.eq_of_answered hstatus hbody hcame,
      fun r base provider call result =>
        (Codec.readsNullAs_record r).eq_of_answered hstatus hbody hcame,
      fun c base provider call result =>
        (Codec.readsNullAs_list c).eq_of_answered hstatus hbody hcame,
      fun base headers cookieName session => Validator.resolve_of_standsForNull hbody hcame⟩

/-- Blanks and a line end in answer to the question about a token are no profile, although an object
without members is one. -/
theorem blank_profile_is_refused :
    let body : Bytes := Utf8.encode " \t\r\n"
    (∃ profile, Call.decodeBody Profile.record.codec (Utf8.encode "\x7b\x7d") = .ok profile) ∧
      ∃ turns result,
        (Service.getProfile.execute "http://backend.test" (some (.fixed 0 (some "tok")))).Reaches
          turns (.done result) ∧ Answered turns 200 body ∧
        ∃ expected, result = .error (.decode ⟨[], .mismatch .null expected⟩) := by
  intro body
  have hblank : body.all Text.isAsciiBlank = true := by decide +kernel
  obtain ⟨turns, result, h, hcame⟩ := Validator.exists_answered_example 200 body
  obtain ⟨-, hruns⟩ := blank_success_is_read_as_null (by decide : Http.isSuccess 200 = true) hblank
  obtain ⟨hservices, -⟩ := hruns body (.inl rfl) turns hcame
  obtain ⟨-, hrefused⟩ := hservices .getProfile _ _ result h
  exact ⟨⟨{}, by rfl⟩, turns, result, h, hcame, hrefused nofun⟩

end FinanceGateway
