import FinanceGateway.Call.Service
import FinanceGateway.Proofs.Url.Segments

/-!
# Where services are found

A service is found below a base at literal segments, and if it is about one thing, at one more
segment with the id of the thing in percent codes (`Service.place`). Its path is made of just these
(`Service.resolve_eq`), so it begins with a slash (`Service.path_eq_cons`), and no separator but the
slash gets into it (`Service.mem_path`).
-/

namespace FinanceGateway

open Url

/-! ## Places -/

/-- Where a service is found: at the literal segments of its template, and below them at an id if it
is about one thing. -/
@[ext]
structure Place where
  kind : List String
  id : Option String
  deriving DecidableEq

namespace Place

/-- The segments of the path of a place. -/
def segments (p : Place) : List String :=
  p.kind ++ (p.id.map Percent.encode).toList

/-- Whether the literal segments are there and stand for themselves. -/
def IsLiteral (p : Place) : Prop :=
  p.kind ≠ [] ∧ ∀ s ∈ p.kind,
    s ≠ "" ∧ (∀ c ∈ s.toList, Percent.isCoded c = true) ∧ Stays s.toList

end Place

namespace Service

/-- Where a service is found. -/
def place : Service → Place
  | listAccounts | createAccount _ | updateAccount _ => ⟨["api", "v1", "account"], none⟩
  | getAccount id => ⟨["api", "v1", "account"], some id⟩
  | getProfile => ⟨["auth", "user"], none⟩
  | listGoals _ | createGoal _ => ⟨["investment", "goal"], none⟩
  | getGoal id | updateGoal id _ => ⟨["investment", "goal"], some id⟩
  | uploadStatement _ => ⟨["reconciliation", "upload"], none⟩
  | listSms | createSms _ => ⟨["sms"], none⟩
  | getSms id => ⟨["sms"], some id⟩
  | listBanks => ⟨["static", "bank"], none⟩
  | listCategories => ⟨["static", "categories"], none⟩
  | listMerchants => ⟨["static", "merchants"], none⟩
  | getHealth => ⟨["health"], none⟩
  | listTransactions _ | createTransaction _ | deleteTransactions _ => ⟨["transaction"], none⟩
  | parseReceipt _ _ _ => ⟨["transaction", "image-parse"], none⟩
  | updateUser _ => ⟨["user"], none⟩

/-- The name of the id in the template. -/
def idName : Service → String
  | getAccount _ => "account_id"
  | _ => "id"

/-- The template is that of the place: its literal segments, and a placeholder for the id. -/
theorem template_eq (s : Service) : s.template.toList = slashed s.place.kind ++
    match s.place.id with
    | none => []
    | some _ => '/' :: '\x7b' :: (s.idName.toList ++ ['\x7d']) := by
  cases s <;> simp only [template, place, idName] <;> decide +kernel

/-- The call of a service gives the placeholder of its template the id, and nothing else. -/
theorem exists_call (s : Service) : ∃ call, s.call = .ok call ∧ call.template = s.template ∧
    call.pathValues = (s.place.id.map fun id => (s.idName, id)).toList := by
  cases s <;> exact ⟨_, rfl, rfl, rfl⟩

/-- The literal segments of a template stand for themselves. -/
theorem isLiteral_place (s : Service) : s.place.IsLiteral := by
  have h : s.place.kind ≠ [] ∧ ∀ segment ∈ s.place.kind, segment ≠ "" ∧
      segment.toList.all Percent.isCoded = true ∧ isSingleDot segment.toList = false ∧
      isDoubleDot segment.toList = false := by
    cases s <;> simp only [place] <;> decide +kernel
  refine ⟨h.1, fun segment hmem => ?_⟩
  obtain ⟨hne, hcoded, hstays⟩ := h.2 segment hmem
  exact ⟨hne, List.all_eq_true.1 hcoded, hstays⟩

end Service

/-! ## Resolving the template -/

/-- Characters that open no placeholder are literal. -/
theorem Piece.ofChars_literal {cs : List Char} (h : '\x7b' ∉ cs) (rest : List Char) :
    Piece.ofChars none (cs ++ rest) = cs.map .literal ++ Piece.ofChars none rest := by
  induction cs with
  | nil => rfl
  | cons c cs ih =>
    simp only [List.mem_cons, not_or] at h
    rw [List.cons_append, Piece.ofChars, if_neg (by simpa using Ne.symm h.1), ih h.2]
    rfl

/-- A name goes on to the brace that closes it. -/
theorem Piece.ofChars_name {name : List Char} (h : '\x7d' ∉ name) (read rest : List Char) :
    Piece.ofChars (some read) (name ++ '\x7d' :: rest) =
      .placeholder (read.reverse ++ name) :: Piece.ofChars none rest := by
  induction name generalizing read with
  | nil => simp [Piece.ofChars]
  | cons c name ih =>
    simp only [List.mem_cons, not_or] at h
    rw [List.cons_append, Piece.ofChars, if_neg (by simpa using Ne.symm h.1), ih h.2]
    simp

namespace Call

/-- Literal characters stay. -/
theorem resolvePieces_literal (call : Call) (cs : List Char) (rest : List Piece) :
    call.resolvePieces (cs.map .literal ++ rest) = (call.resolvePieces rest).map (cs ++ ·) := by
  induction cs with
  | nil => cases h : call.resolvePieces rest <;> simp [h, Except.map]
  | cons c cs ih =>
    rw [List.map_cons, List.cons_append, resolvePieces, ih]
    cases call.resolvePieces rest <;> rfl

end Call

/-- The segments of a place are made of unreserved characters and percent codes. -/
theorem Place.IsLiteral.isCoded {p : Place} (h : p.IsLiteral) :
    ∀ s ∈ p.segments, ∀ c ∈ s.toList, Percent.isCoded c = true := by
  intro s hs c hc
  rcases List.mem_append.1 hs with hs | hs
  · exact (h.2 s hs).2.1 c hc
  · obtain ⟨id, -, rfl⟩ : ∃ id, p.id = some id ∧ Percent.encode id = s := by simpa using hs
    exact Percent.isCoded_of_mem_encode hc

/-- No literal segment opens a placeholder. -/
theorem Place.IsLiteral.brace_not_mem {p : Place} (h : p.IsLiteral) :
    '\x7b' ∉ slashed p.kind := by
  intro hmem
  rcases mem_slashed hmem with hc | ⟨s, hs, hc⟩
  · exact absurd hc (by decide)
  · exact absurd ((h.2 s hs).2.1 _ hc) (by decide)

namespace Service

variable {s : Service} {call : Call}

/-- The path of a service is that of its place. -/
theorem resolve_eq (hcall : s.call = .ok call) :
    call.resolve = .ok (String.ofList (slashed s.place.segments)) := by
  obtain ⟨call', hcall', htemplate, hvalues⟩ := s.exists_call
  obtain rfl : call' = call := Except.ok.inj (hcall'.symm.trans hcall)
  have hbrace := s.isLiteral_place.brace_not_mem
  have hname : '\x7d' ∉ s.idName.toList := by
    cases s <;> simp only [idName] <;> decide
  rw [Call.resolve, htemplate, s.template_eq, Place.segments]
  cases hid : s.place.id with
  | none =>
    rw [Piece.ofChars_literal hbrace, Call.resolvePieces_literal]
    simp [Piece.ofChars, Call.resolvePieces, Except.map]
  | some id =>
    have hvalue : call'.pathValue? s.idName = some id := by
      simp [Call.pathValue?, hvalues, hid]
    have hliteral : '\x7b' ∉ slashed s.place.kind ++ ['/'] := by simpa using hbrace
    have hpieces : Piece.ofChars none (slashed s.place.kind ++
        '/' :: '\x7b' :: (s.idName.toList ++ ['\x7d'])) =
          (slashed s.place.kind ++ ['/']).map .literal ++
            [.placeholder s.idName.toList] := by
      rw [List.append_cons, Piece.ofChars_literal hliteral, Piece.ofChars, if_pos (by decide),
        Piece.ofChars_name hname]
      rfl
    simp only [hpieces, Call.resolvePieces_literal, Call.resolvePieces, String.ofList_toList,
      hvalue]
    simp [Except.map]

variable {path : String}

theorem path_eq (hcall : s.call = .ok call) (h : call.resolve = .ok path) :
    path.toList = slashed s.place.segments := by
  rw [resolve_eq hcall] at h
  cases h
  exact String.toList_ofList

/-- The path of a service begins with a slash. -/
theorem path_eq_cons (hcall : s.call = .ok call) (h : call.resolve = .ok path) :
    ∃ more, path.toList = '/' :: more := by
  obtain ⟨segment, kind, hkind⟩ := List.exists_cons_of_ne_nil s.isLiteral_place.1
  rw [path_eq hcall h, Place.segments, hkind, List.cons_append, slashed_cons]
  exact ⟨_, rfl⟩

/-- The path of a service is made of slashes, unreserved characters and percent codes. -/
theorem mem_path (hcall : s.call = .ok call) (h : call.resolve = .ok path)
    {c : Char} (hc : c ∈ path.toList) : c = '/' ∨ Percent.isCoded c = true := by
  rw [path_eq hcall h] at hc
  exact (mem_slashed hc).imp_right fun ⟨segment, hsegment, hc⟩ =>
    s.isLiteral_place.isCoded segment hsegment c hc

end Service

end FinanceGateway
