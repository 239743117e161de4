import IrConvert.Proofs.Conversion.Split
import IrConvert.Proofs.Source.Content

namespace IrConvert

namespace Converter

variable {converter : Converter}

/-- An answer is an output closed by a newline. -/
theorem exists_outputs {chunks answers : List Text}
    (h : chunks.map converter.answer = answers.map .done) :
    ∃ outputs : List Text, (chunks.map fun chunk => (converter.convert chunk).outcome) =
      outputs.map .done ∧ answers = outputs.map Text.withNewline := by
  induction chunks generalizing answers with
  | nil => exact ⟨[], rfl, List.map_eq_nil_iff.1 h.symm⟩
  | cons chunk chunks ih =>
    cases answers with
    | nil => cases h
    | cons first answers =>
      obtain ⟨hfirst, hrest⟩ := List.cons.inj h
      obtain ⟨outputs, hout, rfl⟩ := ih hrest
      obtain ⟨output, houtput, rfl⟩ := answer_eq_done_iff.1 hfirst
      exact ⟨output :: outputs, by rw [List.map_cons, houtput, hout]; rfl, rfl⟩

theorem convert_ne_crashed_of_answers {chunks answers : List Text}
    (h : chunks.map converter.answer = answers.map .done) :
    ∀ chunk ∈ chunks, (converter.convert chunk).outcome ≠ .crashed := by
  intro chunk hchunk hcrashed
  obtain ⟨text, htext⟩ := exists_answer h hchunk
  obtain ⟨output, houtput, -⟩ := answer_eq_done_iff.1 htext
  cases hcrashed.symm.trans houtput

end Converter

namespace Registry

variable {registry : Registry} {options : Options} {converter : Converter}

/-- A conversion chunk by chunk is done exactly if that of every chunk is, and then it answers
with their answers. -/
theorem convert_split_eq_done_iff (hget : registry.get? options.converter = some converter)
    (source out : Text) :
    (registry.convert options.split source).outcome = .done out ↔
      Source.contents source ≠ [] ∧ ∃ answers : List Text,
        (Source.contents source).map converter.answer = answers.map .done ∧
          out = Source.joinChunks answers := by
  rw [← Converter.ending_eq_done_iff]
  constructor
  · intro h
    have hrun : (registry.convert options.split source).outcome ≠ .crashed := by simp [h]
    rwa [outcome_convert_split_of_ne_crashed hget hrun] at h
  · intro h
    obtain ⟨-, answers, hanswers, -⟩ := (Converter.ending_eq_done_iff ..).1 h
    rwa [outcome_convert_split hget (Converter.convert_ne_crashed_of_answers hanswers)]

end Registry

namespace Source

/-- Cutting at marker lines undoes joining with them, whether or not a text had a newline at its
end. -/
theorem chunks_joinChunks_withNewline {texts : List Text} (hne : texts ≠ [])
    (hunmarked : ∀ text ∈ texts, Unmarked text) :
    chunks (joinChunks (texts.map Text.withNewline)) = texts.map Text.withNewline := by
  refine chunks_joinChunks (by simpa using hne) ?_ fun text htext => ?_
  · exact List.forall_mem_map.2 fun text htext => unmarked_withNewline (hunmarked text htext)
  · obtain ⟨text, -, rfl⟩ := List.mem_map.1 (List.dropLast_subset _ htext)
    exact .inr (Text.getLast?_withNewline text)

theorem unmarked_of_mem_contents {source chunk : Text} (h : chunk ∈ contents source) :
    Unmarked chunk := unmarked_of_mem_chunks (List.mem_filter.1 h).1

theorem contents_joinChunks_withNewline {texts : List Text} (hne : texts ≠ [])
    (hunmarked : ∀ text ∈ texts, Unmarked text)
    (hblank : ∀ text ∈ texts.map Text.withNewline, isBlank text = false) :
    contents (joinChunks (texts.map Text.withNewline)) = texts.map Text.withNewline := by
  rw [contents, chunks_joinChunks_withNewline hne hunmarked, List.filter_eq_self]
  intro text htext
  rw [hblank text htext]
  rfl

end Source

namespace Registry

variable {registry : Registry} {options : Options} {converter : Converter}

/-- The output of a conversion comes back if the converter closes each of its texts again. -/
theorem convert_joined (hget : registry.get? options.converter = some converter)
    {texts : List Text} (hne : texts ≠ []) (hunmarked : ∀ text ∈ texts, Source.Unmarked text)
    (hagain : ∀ text ∈ texts.map Text.withNewline,
      Source.isBlank text = false ∧ converter.answer text = .done text) :
    let out := Source.joinChunks (texts.map Text.withNewline)
    (registry.convert options.split out).outcome = .done out := by
  intro out
  have hcontents := Source.contents_joinChunks_withNewline hne hunmarked fun text htext =>
    (hagain text htext).1
  rw [convert_split_eq_done_iff hget, hcontents]
  exact ⟨by simpa using hne, _, List.map_congr_left fun text htext => (hagain text htext).2, rfl⟩

/-- A converter that changes nothing puts the contents together again. -/
theorem convert_of_unchanged (hget : registry.get? options.converter = some converter)
    (h : ∀ text, (converter.convert text).outcome = .done text) {source : Text}
    (hne : Source.contents source ≠ []) :
    (registry.convert options.split source).outcome =
      .done (Source.joinChunks ((Source.contents source).map Text.withNewline)) := by
  rw [convert_split_eq_done_iff hget]
  refine ⟨hne, _, ?_, rfl⟩
  rw [List.map_map]
  exact List.map_congr_left fun chunk _ => Converter.answer_eq_done_iff.2 ⟨chunk, h chunk, rfl⟩

end Registry

/-- The output of a conversion chunk by chunk is cut into the outputs of the chunks, and it is
converted to itself if each of them is. A converter that changes nothing keeps all content
lines. -/
theorem convert_split_stable {registry : Registry} {options : Options} {converter : Converter}
    (hget : registry.get? options.converter = some converter) :
    let convert := fun source => (registry.convert options.split source).outcome
    let run := fun source => (converter.convert source).outcome
    (∀ source out, convert source = .done out → ∃ outputs : List Text,
      (Source.contents source).map run = outputs.map .done ∧
      ((∀ output ∈ outputs, Source.Unmarked output) →
        Source.chunks out = outputs.map Text.withNewline ∧
        ((∀ text ∈ outputs.map Text.withNewline, Source.isBlank text = false ∧
            ∃ again, run text = .done again ∧ again.withNewline = text) →
          convert out = .done out))) ∧
    ((∀ source, run source = .done source) → ∀ source,
      (Source.isBlank source = false → ∃ out, convert source = .done out) ∧
      ∀ out, convert source = .done out →
        Source.chunks out = (Source.contents source).map Text.withNewline ∧
        convert out = .done out ∧
        Source.contentLines out = Source.contentLines source) := by
  intro convert run
  refine ⟨fun source out hout => ?_, fun hrun source => ⟨fun hblank => ?_, fun out hout => ?_⟩⟩
  · obtain ⟨hne, answers, hanswers, rfl⟩ :=
      (Registry.convert_split_eq_done_iff hget source out).1 hout
    obtain ⟨outputs, houtputs, rfl⟩ := Converter.exists_outputs hanswers
    have hnil : outputs ≠ [] := by
      rintro rfl
      exact hne (List.map_eq_nil_iff.1 houtputs)
    refine ⟨outputs, houtputs, fun hunmarked =>
      ⟨Source.chunks_joinChunks_withNewline hnil hunmarked, fun hagain => ?_⟩⟩
    refine Registry.convert_joined hget hnil hunmarked fun text htext => ?_
    exact (hagain text htext).imp_right Converter.answer_eq_done_iff.2
  · exact ⟨_, Registry.convert_of_unchanged hget hrun (Source.contents_ne_nil hblank)⟩
  · obtain ⟨hne, -⟩ := (Registry.convert_split_eq_done_iff hget source out).1 hout
    obtain rfl := Outcome.done.inj (hout.symm.trans (Registry.convert_of_unchanged hget hrun hne))
    have hunmarked : ∀ chunk ∈ Source.contents source, Source.Unmarked chunk := fun chunk =>
      Source.unmarked_of_mem_contents
    have hchunks := Source.chunks_joinChunks_withNewline hne hunmarked
    refine ⟨hchunks, Registry.convert_joined hget hne hunmarked fun text htext => ?_, ?_⟩
    · obtain ⟨chunk, hchunk, rfl⟩ := List.mem_map.1 htext
      rw [Source.isBlank_withNewline]
      exact ⟨Source.isBlank_of_mem_contents hchunk, Converter.answer_eq_done_iff.2
        ⟨_, hrun chunk.withNewline, Text.withNewline_withNewline chunk⟩⟩
    · rw [Source.contentLines_eq_chunks, hchunks, List.flatMap_map,
        Source.contentLines_eq_contents source]
      simp only [Source.contentLines_withNewline]

def passing : Converter where
  name := "pass"
  description := "Pass on"
  convert := pure

def passingOnly : Registry where
  converters := [passing]
  sorted := List.pairwise_singleton ..
  acceptable := List.forall_mem_singleton.2 (by decide)

/-- A carriage return is kept, a chunk with nothing but a comment is dropped, and a chunk that is
open at its end is closed, once. -/
theorem convert_split_stable_at_open_chunk :
    let options := (Options.forConverter "pass".toList).split
    let out := "a\r\n// -----\nb\n".toList
    passingOnly.get? options.converter = some passing ∧
    (passingOnly.convert options "a\r\n// -----\n // x\n// -----\nb".toList).outcome =
      .done out ∧
    Source.chunks out = ["a\r\n".toList, "b\n".toList] ∧
    (passingOnly.convert options out).outcome = .done out := by
  intro options out
  have hget : passingOnly.get? "pass".toList = some passing := rfl
  have hout : (passingOnly.convert options "a\r\n// -----\n // x\n// -----\nb".toList).outcome =
      .done out := by decide
  obtain ⟨-, hpassing⟩ :=
    @convert_split_stable passingOnly (.forConverter "pass".toList) passing hget
  obtain ⟨-, hstable⟩ := hpassing (fun _ => rfl) "a\r\n// -----\n // x\n// -----\nb".toList
  obtain ⟨hchunks, hagain, -⟩ := hstable out hout
  exact ⟨hget, hout, hchunks, hagain⟩

end IrConvert
