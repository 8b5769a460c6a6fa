import FinanceGateway.Dispatch.Execute
import FinanceGateway.Proofs.Call.Place
import FinanceGateway.Proofs.Url.Below

/-!
# Where calls lead

`Service.address_eq` says where the call of a service leads once base and path are joined and read
as one address: to the place of the service, except that an id of one or two dots moves within the
path (`Place.landing`). Places of services are told apart by where they lead, dots included
(`Service.place_eq_of_path_eq`), and an id leads to the address of its thing unless it is one dot or
two (`Url.Base.isAddressOf_landing_iff`).
-/

namespace FinanceGateway

open Url

/-! ## Landing -/

namespace Place

/-- The segments below a base that the path of a place comes to: one dot leaves nothing of the id,
two dots leave nothing of the last literal segment either. -/
def landing (p : Place) : List String :=
  match p.id with
  | none => p.kind
  | some id =>
    if id = ".." then p.kind.dropLast ++ [""]
    else if id = "." then p.kind ++ [""]
    else p.kind ++ [Percent.encode id]

variable {p : Place}

/-- The segments of a place are those of a plain path. -/
theorem IsLiteral.plainSegments (h : p.IsLiteral) : PlainSegments p.segments := by
  have hcoded (c : Char) (hc : Percent.isCoded c = true) :
      isPlain c = true ∧ isSlash true c = false := by
    have hlt : c.toNat < 128 := by
      simp only [Percent.isCoded, Bool.and_eq_true, decide_eq_true_eq] at hc
      exact hc.1
    have hall : ∀ n : Fin 128, Percent.isCoded (Char.ofNat n) = true →
        isPlain (Char.ofNat n) = true ∧ isSlash true (Char.ofNat n) = false := by
      decide +kernel
    have := hall ⟨c.toNat, hlt⟩
    rw [Char.ofNat_toNat] at this
    exact this hc
  exact fun s hs c hc => hcoded c (h.isCoded s hs c hc)

/-- The literal segments are settled as they are. -/
theorem IsLiteral.settle_kind (h : p.IsLiteral) (above : List String) :
    (p.kind.map String.toList).foldl settle above = p.kind.reverse ++ above := by
  obtain ⟨kind, id⟩ := p
  have hkind := h.2
  clear h
  simp only at hkind ⊢
  induction kind generalizing above with
  | nil => rfl
  | cons s kind ih =>
    obtain ⟨-, hcoded, hstays⟩ := hkind s (.head _)
    rw [List.map_cons, List.foldl_cons, settle_of_stays hstays, coded_of_isCoded hcoded,
      String.ofList_toList, ih _ fun t ht => hkind t (.tail _ ht)]
    simp

/-- The segments of a place are resolved to where it leads. -/
theorem IsLiteral.resolve_segments (h : p.IsLiteral) (above : List String) :
    resolveSegments (p.segments.map String.toList) above = above.reverse ++ p.landing := by
  obtain ⟨kind, id⟩ := p
  have hsettle := h.settle_kind above
  simp only [Place.segments, landing] at hsettle ⊢
  cases id with
  | none =>
    have hlast : ∀ last ∈ (kind.map String.toList).getLast?, Stays last := by
      intro last hlast
      obtain ⟨s, hs, rfl⟩ := List.mem_map.1 (List.mem_of_getLast? hlast)
      exact (h.2 s hs).2.2
    simp [resolveSegments_of_stays hlast, hsettle]
  | some id =>
    rw [List.map_append, resolveSegments_append _ (by simp), hsettle]
    have hcoded : coded keptInPath (Percent.encode id).toList = Percent.encode id := by
      rw [coded_of_isCoded fun c hc => Percent.isCoded_of_mem_encode hc, String.ofList_toList]
    have hdouble := isDoubleDot_encode_iff (s := id)
    have hsingle := isSingleDot_encode_iff (s := id)
    simp only [Option.map_some, Option.toList_some, List.map_cons, List.map_nil, resolveSegments,
      hdouble, hsingle, hcoded, List.isEmpty_nil, if_true]
    by_cases hid : id = ".."
    · have htail : (kind.reverse ++ above).tail = kind.dropLast.reverse ++ above := by
        rw [List.tail_append_of_ne_nil (by simpa using h.1), List.tail_reverse]
      simp [hid, htail]
    · by_cases hid' : id = "."
      · simp [hid']
      · simp [hid, hid']

end Place

namespace Service

variable {s : Service} {call : Call} {path : String}

/-- Below a base, the call of a service leads to where its place leads. -/
theorem address_eq (b : Base) (hcall : s.call = .ok call) (hpath : call.resolve = .ok path) :
    Call.address b.text path = .ok (b.below s.place.landing) := by
  have hliteral := s.isLiteral_place
  rw [resolve_eq hcall] at hpath
  cases hpath
  have hne : s.place.segments ≠ [] := by simp [Place.segments, hliteral.1]
  rw [Call.address, b.read_below hliteral.plainSegments hne, hliteral.resolve_segments,
    List.reverse_reverse]
  rfl

end Service

/-! ## Telling places apart -/

/-- No segment of a landing has a slash in it. -/
theorem Place.IsLiteral.slash_not_mem {p : Place} (h : p.IsLiteral) :
    ∀ s ∈ p.landing, '/' ∉ s.toList := by
  have hpath := h.plainSegments.slash_not_mem
  have hkind : ∀ s ∈ p.kind, '/' ∉ s.toList :=
    fun s hs => hpath s (List.mem_append_left _ hs)
  have hempty : ∀ s ∈ [""], '/' ∉ s.toList := by simp
  intro s hs
  unfold landing at hs
  split at hs
  · exact hkind s hs
  · next id hid =>
    have hcode : ∀ s ∈ [Percent.encode id], '/' ∉ s.toList := by
      intro s hs
      exact hpath s (List.mem_append_right _ (by simpa [hid] using hs))
    split at hs
    · exact (List.mem_append.1 hs).elim (fun hs => hkind s (List.dropLast_subset _ hs)) (hempty s)
    · split at hs
      · exact (List.mem_append.1 hs).elim (hkind s) (hempty s)
      · exact (List.mem_append.1 hs).elim (hkind s) (hcode s)

/-- Every place leads somewhere below the base. -/
theorem Place.IsLiteral.landing_ne_nil {p : Place} (h : p.IsLiteral) : p.landing ≠ [] := by
  unfold landing
  split
  · exact h.1
  · split
    · simp
    · split <;> simp

namespace Service

/-- The literal segments of services. -/
def kinds : List (List String) := [
  ["api", "v1", "account"], ["auth", "user"], ["investment", "goal"], ["reconciliation", "upload"],
  ["sms"], ["static", "bank"], ["static", "categories"], ["static", "merchants"], ["health"],
  ["transaction"], ["transaction", "image-parse"], ["user"]]

/-- The literal segments of services about one thing. -/
def thingKinds : List (List String) :=
  [["api", "v1", "account"], ["investment", "goal"], ["sms"]]

theorem kind_mem (s : Service) : s.place.kind ∈ kinds := by
  cases s <;> simp only [place] <;> decide

theorem kind_mem_of_id {s : Service} {id : String} (h : s.place.id = some id) :
    s.place.kind ∈ thingKinds := by
  cases s with
  | getAccount | getGoal | updateGoal | getSms =>
    simp only [place]
    decide
  | _ => cases h

end Service

namespace Place

variable {p q : Place} {id id' : String}

/-- How one thing of a kind is found: below its kind at its code, at the kind itself, or above. -/
theorem landing_cases (h : p.id = some id) (hne : id ≠ "") :
    (id ≠ "." ∧ id ≠ ".." ∧ Percent.encode id ≠ "" ∧ p.landing = p.kind ++ [Percent.encode id]) ∨
    (id = "." ∧ p.landing = p.kind ++ [""]) ∨
    (id = ".." ∧ p.landing = p.kind.dropLast ++ [""]) := by
  have hcode : Percent.encode id ≠ "" := fun hcode =>
    hne (Percent.encode_injective (hcode.trans (by decide +kernel)))
  by_cases hdouble : id = ".."
  · exact .inr (.inr ⟨hdouble, by simp [landing, h, hdouble]⟩)
  · by_cases hsingle : id = "."
    · exact .inr (.inl ⟨hsingle, by simp [landing, h, hsingle]⟩)
    · exact .inl ⟨hsingle, hdouble, hcode, by simp [landing, h, hsingle, hdouble]⟩

/-- No id of a thing leads to a place that is not about one thing. -/
theorem landing_ne_kind (hp : p.kind ∈ Service.thingKinds) (h : p.id = some id) (hne : id ≠ "")
    {kind : List String} (hkind : kind ∈ Service.kinds) : p.landing ≠ kind := by
  have habove : ∀ k ∈ Service.kinds, ∀ k' ∈ Service.thingKinds, k.dropLast ≠ k' := by decide
  have hlast : ∀ k ∈ Service.kinds, k.getLast? ≠ some "" := by decide
  rintro rfl
  rcases landing_cases h hne with ⟨-, -, -, hl⟩ | ⟨-, hl⟩ | ⟨-, hl⟩
  · exact habove _ hkind _ hp (by rw [hl, List.dropLast_concat])
  · exact hlast _ hkind (by rw [hl, List.getLast?_concat])
  · exact hlast _ hkind (by rw [hl, List.getLast?_concat])

/-- Two ids that are not empty lead to the same path only when kinds and ids are the same. -/
theorem eq_of_landing_eq (hp : p.kind ∈ Service.thingKinds) (hq : q.kind ∈ Service.thingKinds)
    (hid : p.id = some id) (hid' : q.id = some id') (hne : id ≠ "") (hne' : id' ≠ "")
    (h : p.landing = q.landing) : p.kind = q.kind ∧ id = id' := by
  have habove : ∀ k ∈ Service.thingKinds, ∀ k' ∈ Service.thingKinds,
      k ≠ k'.dropLast ∧ (k.dropLast = k'.dropLast → k = k') := by decide
  rcases landing_cases hid hne with ⟨-, -, hcode, hl⟩ | ⟨rfl, hl⟩ | ⟨rfl, hl⟩ <;>
    rcases landing_cases hid' hne' with ⟨-, -, hcode', hl'⟩ | ⟨rfl, hl'⟩ | ⟨rfl, hl'⟩ <;>
      obtain ⟨hkind, hlast⟩ := List.append_inj' (hl.symm.trans (h.trans hl')) rfl
  · exact ⟨hkind, Percent.encode_injective (List.cons.inj hlast).1⟩
  · exact absurd (List.cons.inj hlast).1 hcode
  · exact absurd (List.cons.inj hlast).1 hcode
  · exact absurd (List.cons.inj hlast).1.symm hcode'
  · exact ⟨hkind, rfl⟩
  · exact absurd hkind (habove _ hp _ hq).1
  · exact absurd (List.cons.inj hlast).1.symm hcode'
  · exact absurd hkind.symm (habove _ hq _ hp).1
  · exact ⟨(habove _ hp _ hq).2 hkind, rfl⟩

end Place

/-- Services that lead to the same path are found at the same place. -/
theorem Service.place_eq_of_path_eq (b : Base) {s t : Service} (hs : s.place.id ≠ some "")
    (ht : t.place.id ≠ some "")
    (h : (b.below s.place.landing).path = (b.below t.place.landing).path) : s.place = t.place := by
  have hland : s.place.landing = t.place.landing := by
    refine slashed_injective s.isLiteral_place.slash_not_mem t.isLiteral_place.slash_not_mem ?_
    have hpath : slashed (b.segments ++ s.place.landing) =
        slashed (b.segments ++ t.place.landing) := String.ofList_injective h
    simpa using hpath
  have hempty {u : Service} {id : String} (hu : u.place.id ≠ some "") (hid : u.place.id = some id) :
      id ≠ "" := by
    rintro rfl
    exact hu hid
  cases hid : s.place.id with
  | none =>
    have hl : s.place.landing = s.place.kind := by rw [Place.landing, hid]
    cases hid' : t.place.id with
    | none =>
      have hl' : t.place.landing = t.place.kind := by rw [Place.landing, hid']
      exact Place.ext (hl.symm.trans (hland.trans hl')) (hid.trans hid'.symm)
    | some id' =>
      exact absurd (hland.symm.trans hl)
        (Place.landing_ne_kind (kind_mem_of_id hid') hid' (hempty ht hid') s.kind_mem)
  | some id =>
    cases hid' : t.place.id with
    | none =>
      have hl' : t.place.landing = t.place.kind := by rw [Place.landing, hid']
      exact absurd (hland.trans hl')
        (Place.landing_ne_kind (kind_mem_of_id hid) hid (hempty hs hid) t.kind_mem)
    | some id' =>
      obtain ⟨hkind, rfl⟩ := Place.eq_of_landing_eq (kind_mem_of_id hid) (kind_mem_of_id hid')
        hid hid' (hempty hs hid) (hempty ht hid') hland
      exact Place.ext hkind (hid.trans hid'.symm)

/-! ## The address of one thing -/

/-- The address of one thing: below the base and its kind, one segment that stands for its id. -/
def Url.Base.IsAddressOf (b : Base) (kind : List String) (id : String) (url : Url) : Prop :=
  ∃ segment, url = b.below (kind ++ [segment]) ∧ Percent.decodeText? segment = some id

/-- An id leads to the address of its thing, unless it is one dot or two. -/
theorem Url.Base.isAddressOf_landing_iff (b : Base) {kind : List String} (hkind : kind ≠ [])
    (id : String) :
    b.IsAddressOf kind id (b.below (Place.landing ⟨kind, some id⟩)) ↔ id ≠ "." ∧ id ≠ ".." := by
  have hsame {segments segments' : List String} (h : b.below segments = b.below segments') :
      segments = segments' := by
    simpa [Base.below] using h
  constructor
  · rintro ⟨segment, hurl, hsegment⟩
    have hland := hsame hurl
    constructor
    · rintro rfl
      have hlast : "" = segment := by simpa [Place.landing] using hland
      rw [← hlast] at hsegment
      exact absurd hsegment (by decide +kernel)
    · rintro rfl
      have hlength := congrArg List.length hland
      have hpos := List.length_pos_iff.2 hkind
      simp only [Place.landing, if_true, List.length_append, List.length_dropLast,
        List.length_singleton] at hlength
      omega
  · rintro ⟨hsingle, hdouble⟩
    refine ⟨Percent.encode id, ?_, Percent.decodeText?_encode id⟩
    simp [Place.landing, hsingle, hdouble]

end FinanceGateway
