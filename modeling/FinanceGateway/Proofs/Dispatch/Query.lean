import FinanceGateway.Proofs.Call.Template
import FinanceGateway.Proofs.Dispatch.Sending
import FinanceGateway.Proofs.Url.Query

/-!
# The query of a call is sent as it is

No question mark gets from a value into the path of a call, so below a base without a query what a
server is asked for has the query of the call and no other: its pairs are the values that are
present, in declared order (`execute_query`).
-/

namespace FinanceGateway

/-! ## Marks in a path -/

/-- A literal piece of a template is one of its characters. -/
theorem Piece.Reads.mem_of_literal {cs : List Char} {pieces : List Piece} {c : Char}
    (h : Piece.Reads cs pieces) (hc : .literal c ∈ pieces) : c ∈ cs := by
  induction h with
  | nil => cases hc
  | literal _ _ ih =>
    rcases List.mem_cons.1 hc with heq | hc
    · cases heq
      exact .head _
    · exact .tail _ (ih hc)
  | placeholder _ _ ih =>
    rcases List.mem_cons.1 hc with heq | hc
    · cases heq
    · exact .tail _ (List.mem_append_right _ (.tail _ (ih hc)))
  | unterminated =>
    cases List.mem_singleton.1 hc

namespace Call

variable {call : Call} {base path : String} {token : Option String} {out : Outgoing}

/-- What stands in a path stands in the template, or is part of the codes of a value. -/
theorem mem_resolve (h : call.resolve = .ok path) {c : Char} (hc : c ∈ path.toList) :
    c ∈ call.template.toList ∨ Percent.isCoded c = true := by
  have hreads := Piece.reads_iff.2 (rfl : Piece.ofChars none call.template.toList = _)
  obtain ⟨texts, htexts, rfl⟩ := (resolve_eq_ok_iff hreads).1 h
  rw [String.toList_ofList] at hc
  obtain ⟨text, htext, hc⟩ := List.mem_flatten.1 hc
  obtain ⟨piece, hpiece, hfills⟩ := exists_of_forall₂_of_mem htexts htext
  cases hfills with
  | literal =>
    rw [List.mem_singleton.1 hc]
    exact .inl (hreads.mem_of_literal hpiece)
  | placeholder => exact .inr (Percent.isCoded_of_mem_encode hc)

/-- The query of a request is that of its call, if neither template nor base begins one. -/
theorem query_of_request (htemplate : '?' ∉ call.template.toList) (hbase : '?' ∉ base.toList)
    (hpath : call.resolve = .ok path) (h : call.request base path token = .ok out) :
    Url.HasPairs out.url.target call.queryPairs := by
  obtain ⟨payload, url, -, hurl, -, rfl⟩ := request_eq_ok_iff.1 h
  have hread := Url.read_of_address hurl
  have hmark : '?' ∉ (base ++ path).toList := by
    rw [String.toList_append, List.mem_append]
    rintro (hc | hc)
    · exact hbase hc
    · exact (mem_resolve hpath hc).elim htemplate (by decide)
  exact Url.hasPairs_addQuery hread (Url.query_eq_none_of_read hread hmark) _

end Call

/-- Whatever a call sends, it asks for the query values that are present, in declared order. -/
theorem execute_query {α : Type} {base : String} {home : Url} {call : Call}
    (htemplate : '?' ∉ call.template.toList) (hread : Url.read base = some (.address home))
    (hquery : home.query = none) (hfragment : home.fragment = none) (provider : Option Provider)
    (codec : Json.Codec α) :
    (execute base provider call codec).OnlySends fun out =>
      Url.HasPairs out.url.target call.queryPairs :=
  execute_onlySends fun _ _ _ hpath _ hrequest _ =>
    Call.query_of_request htemplate (Url.question_not_mem_of_read hread hquery hfragment) hpath
      hrequest

end FinanceGateway
