import IrConvert.Proofs.Dialect.Undeclared
import IrConvert.Proofs.Source.Blank

namespace IrConvert.Source

open Text (Closed FullLine)
open Dialect (occurrences occurrences_append occurrences_of_isBlank)

/-- A chunk with all that stands before it in the source. -/
structure Placed where
  before : Text
  chunk : Text
deriving DecidableEq

def placedFrom (front first : Text) : List Cut → List Placed
  | [] => [⟨front, first⟩]
  | cut :: cuts => ⟨front, first⟩ :: placedFrom (front ++ (first ++ cut.mark)) cut.chunk cuts

theorem placedFrom_chunks (front first : Text) (cuts : List Cut) :
    (placedFrom front first cuts).map Placed.chunk = textsOf first cuts := by
  induction cuts generalizing front first with
  | nil => rfl
  | cons cut cuts ih => rw [placedFrom, List.map_cons, ih, textsOf_cons]

theorem Division.placed_prefix {source first : Text} {cuts : List Cut}
    (h : Division source first cuts) (front : Text) :
    ∀ p ∈ placedFrom front first cuts, p.before ++ p.chunk <+: front ++ source := by
  induction h using Division.cutInduction generalizing front with
  | nil text hunmarked => exact List.forall_mem_singleton.2 List.prefix_rfl
  | cons first cut cuts rest hclosed hunmarked htrim hwhole hrest ih =>
    refine List.forall_mem_cons.2 ⟨?_, ?_⟩
    · rw [← List.append_assoc]
      exact List.prefix_append _ _
    · have hplaced := ih (front ++ (first ++ cut.mark))
      simpa only [List.append_assoc] using hplaced

theorem occurrences_mark_append {mark rest : Text} (htrim : mark.trim = marker)
    (hwhole : FullLine mark ∨ ('\n' ∉ mark ∧ rest = [])) :
    occurrences (mark ++ rest) = (occurrences rest).map (·.below (mark.count '\n')) := by
  rcases hwhole with hfull | ⟨hopen, rfl⟩
  · rw [occurrences_append hfull.closed, occurrences_of_isBlank (isBlank_mark (Or.inl hfull) htrim),
      List.nil_append]
  · rw [List.append_nil, occurrences_of_isBlank (isBlank_mark (Or.inr hopen) htrim)]
    rfl

theorem Division.occurrences_below {source first : Text} {cuts : List Cut}
    (h : Division source first cuts) (front : Text) :
    (occurrences source).map (·.below (front.count '\n')) =
      (placedFrom front first cuts).flatMap fun p =>
        (occurrences p.chunk).map (·.below (p.before.count '\n')) := by
  induction h using Division.cutInduction generalizing front with
  | nil text hunmarked => exact (List.append_nil _).symm
  | cons first cut cuts rest hclosed hunmarked htrim hwhole hrest ih =>
    -- the lines before the rest are those of the front, the first text and the marker line
    have hlines : (front ++ (first ++ cut.mark)).count '\n' =
        cut.mark.count '\n' + first.count '\n' + front.count '\n' := by
      rw [List.count_append, List.count_append]
      omega
    rw [occurrences_append hclosed, occurrences_mark_append htrim hwhole, placedFrom,
      List.flatMap_cons, ← ih, hlines]
    simp [Function.comp_def, Dialect.Occurrence.below_below]

theorem Division.occurrences_eq {source first : Text} {cuts : List Cut}
    (h : Division source first cuts) :
    occurrences source = (placedFrom [] first cuts).flatMap fun p =>
      (occurrences p.chunk).map (·.below (p.before.count '\n')) := by
  rw [← h.occurrences_below []]
  exact (List.map_id' _).symm

theorem verify_iff_chunks (source : Text) :
    Dialect.verify source = .done () ↔
      ∀ chunk ∈ chunks source, Dialect.verify chunk = .done () := by
  obtain ⟨first, cuts, h⟩ := exists_division source
  have hchunks : chunks source = (placedFrom [] first cuts).map Placed.chunk := by
    rw [h.chunks_eq, placedFrom_chunks]
  simp only [Dialect.verify_eq_done_iff]
  rw [h.occurrences_eq, hchunks]
  -- an operation is declared by its name, whatever line it stands in
  constructor
  · intro hall chunk hchunk o ho
    obtain ⟨p, hp, rfl⟩ := List.mem_map.1 hchunk
    exact hall (o.below _) (List.mem_flatMap.2 ⟨p, hp, List.mem_map_of_mem ho⟩)
  · intro hall o ho
    obtain ⟨p, hp, hbelow⟩ := List.mem_flatMap.1 ho
    obtain ⟨above, habove, rfl⟩ := List.mem_map.1 hbelow
    exact hall p.chunk (List.mem_map_of_mem hp) above habove

/-- What is not let through in a source is in a chunk that is converted. -/
theorem exists_content_of_verify_ne {source : Text} (h : Dialect.verify source ≠ .done ()) :
    ∃ chunk ∈ contents source, Dialect.verify chunk ≠ .done () := by
  rw [Ne, verify_iff_chunks] at h
  obtain ⟨chunk, hchunk, hverify⟩ : ∃ chunk ∈ chunks source, Dialect.verify chunk ≠ .done () := by
    simpa using h
  refine ⟨chunk, List.mem_filter.2 ⟨hchunk, ?_⟩, hverify⟩
  rw [Bool.not_eq_true']
  by_contra hblank
  rw [Bool.not_eq_false] at hblank
  rw [Ne, Dialect.verify_eq_done_iff, occurrences_of_isBlank hblank] at hverify
  exact hverify nofun

end IrConvert.Source
