import FinanceGateway.Proofs.Gate.Patterns
import FinanceGateway.Proofs.Text.Blank

/-!
# Which paths look like static assets

A path is cut at its last slash, and what follows at its last point; both cuts are the same search
from the end (`reverse_takeWhile_eq_iff`). So apart from what starts with `/api` or `/_next`, an
asset is a path whose last name is a stem, a point and a known extension
(`isStaticAsset_iff_endsLikeAsset`), and what comes before that name makes no difference
(`isStaticAsset_iff_known_ending`).
-/

namespace FinanceGateway

variable {c : Char} {cs after stem extension : List Char} {path other : String}

/-! ## Cutting at the last of a character -/

/-- A text that is empty or ends in a character: a new name can start after it. -/
def EndsAt (c : Char) (before : List Char) : Prop :=
  before = [] ∨ before.getLast? = some c

/-- What is found from the end up to a character is what follows the last of it. -/
theorem reverse_takeWhile_eq_iff :
    (cs.reverse.takeWhile (· != c)).reverse = after ↔
      c ∉ after ∧ ∃ before, EndsAt c before ∧ cs = before ++ after := by
  constructor
  · rintro rfl
    refine ⟨fun hmem => ?_, (cs.reverse.dropWhile (· != c)).reverse, ?_, ?_⟩
    · simpa using List.all_eq_true.1 List.all_takeWhile c (List.mem_reverse.1 hmem)
    · rw [EndsAt, List.reverse_eq_nil_iff, List.getLast?_reverse]
      cases hhead : (cs.reverse.dropWhile (· != c)).head? with
      | none => exact .inl (List.head?_eq_none_iff.1 hhead)
      | some d => exact .inr (by simpa using Text.eq_false_of_head?_dropWhile hhead)
    · rw [← List.reverse_append, List.takeWhile_append_dropWhile, List.reverse_reverse]
  · rintro ⟨hafter, before, hbefore, rfl⟩
    have hall : ∀ d ∈ after.reverse, (d != c) = true := fun d hd =>
      bne_iff_ne.2 fun heq => hafter (List.mem_reverse.1 (heq ▸ hd))
    have hnone : before.reverse.takeWhile (· != c) = [] := by
      rcases hbefore with rfl | hlast
      · rfl
      · rw [← List.head?_reverse] at hlast
        obtain ⟨rest, hrest⟩ := List.head?_eq_some_iff.1 hlast
        rw [hrest, List.takeWhile_cons_of_neg (by simp)]
    rw [List.reverse_append, List.takeWhile_append_of_pos hall, hnone, List.append_nil,
      List.reverse_reverse]

/-- The last segment is what follows the last slash. -/
theorem lastSegment_eq_iff :
    lastSegment cs = after ↔ '/' ∉ after ∧ ∃ before, EndsAt '/' before ∧ cs = before ++ after :=
  reverse_takeWhile_eq_iff

/-- A name with a point is cut at the last one. -/
theorem splitExtension_append (hextension : '.' ∉ extension) :
    splitExtension (stem ++ '.' :: extension) = some (stem, extension) := by
  have hsplit : stem ++ '.' :: extension = (stem ++ ['.']) ++ extension := by simp
  have hfound : ((stem ++ '.' :: extension).reverse.takeWhile (· != '.')).reverse = extension :=
    reverse_takeWhile_eq_iff.2 ⟨hextension, _, .inr List.getLast?_concat, hsplit⟩
  have hlength : (stem ++ '.' :: extension).length - extension.length - 1 = stem.length := by
    rw [List.length_append, List.length_cons]
    omega
  have hpoint : (stem ++ '.' :: extension).contains '.' = true := by simp
  rw [splitExtension, if_pos hpoint]
  simp only [hfound, hlength, List.take_left']

/-- A name has an extension when it has a point: what follows the last one. -/
theorem splitExtension_eq_some_iff :
    splitExtension cs = some (stem, extension) ↔
      cs = stem ++ '.' :: extension ∧ '.' ∉ extension := by
  constructor
  · intro h
    have hpoint : '.' ∈ cs := by
      by_contra hnone
      rw [splitExtension, if_neg (by simpa using hnone)] at h
      cases h
    obtain ⟨back, front, hreverse, hback⟩ := List.eq_append_cons_of_mem (List.mem_reverse.2 hpoint)
    have hcs : cs = front.reverse ++ '.' :: back.reverse := by
      rw [← List.reverse_reverse cs, hreverse]
      simp
    rw [hcs, splitExtension_append (by simpa using hback)] at h
    cases h
    exact ⟨hcs, by simpa using hback⟩
  · rintro ⟨rfl, hextension⟩
    exact splitExtension_append hextension

/-! ## Assets -/

/-- Neither of the prefixes that decide by themselves: that of the interface, and that of the
assets that are named by it. -/
def IsOutside (path : String) : Prop :=
  startsWith path "/api" = false ∧ startsWith path "/_next" = false

/-- The last name of a path is a stem, a point and a known extension. -/
def EndsLikeAsset (path : String) : Prop :=
  ∃ before stem extension : String, path = before ++ stem ++ "." ++ extension ∧
    EndsAt '/' before.toList ∧ stem ≠ "" ∧ '/' ∉ stem.toList ∧ extension ∈ assetExtensions

/-- Two paths have the same last name. -/
def SameName (path other : String) : Prop :=
  ∃ before before' name : String, path = before ++ name ∧ other = before' ++ name ∧
    EndsAt '/' before.toList ∧ EndsAt '/' before'.toList ∧ '/' ∉ name.toList

/-- No known extension has a point or a slash in it. -/
theorem separators_not_mem_extension :
    ∀ extension ∈ assetExtensions, '.' ∉ extension.toList ∧ '/' ∉ extension.toList := by
  decide

/-- Outside the prefixes a path is an asset by its last segment alone. -/
theorem isStaticAsset_of_outside (h : IsOutside path) :
    isStaticAsset path = (splitExtension (lastSegment path.toList)).any fun parts =>
      !parts.1.isEmpty && assetExtensions.contains (String.ofList parts.2) := by
  rw [isStaticAsset, if_neg (by simp [h.1]), if_neg (by simp [h.2])]
  cases splitExtension (lastSegment path.toList) <;> rfl

theorem lastSegment_append {before name : String} (hbefore : EndsAt '/' before.toList)
    (hname : '/' ∉ name.toList) : lastSegment (before ++ name).toList = name.toList :=
  lastSegment_eq_iff.2 ⟨hname, _, hbefore, String.toList_append⟩

/-- Outside the prefixes the assets are the paths that end like one. -/
theorem isStaticAsset_iff_endsLikeAsset (h : IsOutside path) :
    isStaticAsset path = true ↔ EndsLikeAsset path := by
  rw [isStaticAsset_of_outside h, Option.any_eq_true]
  constructor
  · rintro ⟨⟨stem, extension⟩, hsplit, hknown⟩
    obtain ⟨hname, -⟩ := splitExtension_eq_some_iff.1 hsplit
    obtain ⟨hslash, before, hbefore, hpath⟩ := lastSegment_eq_iff.1 hname
    obtain ⟨hstem, hknown⟩ : stem ≠ [] ∧ String.ofList extension ∈ assetExtensions := by
      simpa using hknown
    refine ⟨String.ofList before, String.ofList stem, String.ofList extension, ?_, ?_, ?_, ?_,
      hknown⟩
    · rw [← String.toList_inj, hpath]
      simp
    · rwa [String.toList_ofList]
    · rwa [Ne, String.ofList_eq_empty_iff]
    · rw [String.toList_ofList]
      exact fun hmem => hslash (List.mem_append_left _ hmem)
  · rintro ⟨before, stem, extension, rfl, hbefore, hstem, hslash, hknown⟩
    obtain ⟨hpoint, hslash'⟩ := separators_not_mem_extension extension hknown
    have hname : '/' ∉ (stem ++ "." ++ extension).toList := by simp [hslash, hslash']
    have hlast : lastSegment (before ++ stem ++ "." ++ extension).toList =
        stem.toList ++ '.' :: extension.toList := by
      have hassoc : before ++ stem ++ "." ++ extension = before ++ (stem ++ "." ++ extension) := by
        simp only [String.append_assoc]
      rw [hassoc, lastSegment_append hbefore hname]
      simp
    refine ⟨(stem.toList, extension.toList), ?_, ?_⟩
    · rw [hlast, splitExtension_append hpoint]
    · simpa [hstem] using hknown

/-- Nothing under `/api` is an asset, everything else under `/_next` is one, and any other path is
one when its last name is a stem, which is not empty, a point and a known extension in small
letters. So outside the two prefixes nothing counts but the last name. -/
theorem isStaticAsset_iff_known_ending (path : String) :
    (isStaticAsset path = true ↔
      startsWith path "/api" = false ∧ (startsWith path "/_next" = true ∨ EndsLikeAsset path)) ∧
    ∀ other, IsOutside path → IsOutside other → SameName path other →
      isStaticAsset path = isStaticAsset other := by
  refine ⟨?_, fun other hpath hother hsame => ?_⟩
  · cases hinterface : startsWith path "/api" with
    | true => simp [isStaticAsset, hinterface]
    | false =>
      cases hnext : startsWith path "/_next" with
      | true => simp [isStaticAsset, hinterface, hnext]
      | false => simpa using isStaticAsset_iff_endsLikeAsset ⟨hinterface, hnext⟩
  · obtain ⟨before, before', name, rfl, rfl, hbefore, hbefore', hname⟩ := hsame
    rw [isStaticAsset_of_outside hpath, isStaticAsset_of_outside hother,
      lastSegment_append hbefore hname, lastSegment_append hbefore' hname]

/-- Of a name with several points the last one counts, a name that starts with its only point has no
stem, and a name counts in any place. -/
theorem archive_named_by_last_point_is_asset :
    isStaticAsset "/img/logo.min.zip" = true ∧ isStaticAsset "/img/.zip" = false ∧
      isStaticAsset "/img/logo.min.zip" = isStaticAsset "logo.min.zip" := by
  have hsame : SameName "/img/logo.min.zip" "logo.min.zip" :=
    ⟨"/img/", "", "logo.min.zip", by decide, by decide, .inr (by decide), .inl rfl, by decide⟩
  obtain ⟨hasset, hname⟩ := isStaticAsset_iff_known_ending "/img/logo.min.zip"
  refine ⟨hasset.2 ⟨by decide, .inr ⟨"/img/", "logo.min", "zip", by decide, .inr (by decide),
    by decide, by decide, by decide⟩⟩, by decide,
    hname "logo.min.zip" ⟨by decide, by decide⟩ ⟨by decide, by decide⟩ hsame⟩

end FinanceGateway
