import BoardMarkup.Proofs.Board.LifeCycle
import BoardMarkup.Proofs.Json.Faithful

/-! Records, word lists and parsers are returned by a cache in memory as they were put there. -/
namespace BoardMarkup

open Json

theorem Censor.WordList.faithful : Faithful Censor.WordList.toJson Censor.WordList.ofJson? :=
  ⟨isPlain_toJson, ofJson?_toJson⟩

theorem Parser.faithful : Faithful Parser.toJson Parser.ofJson? := ⟨isPlain_toJson, ofJson?_toJson⟩

theorem Board.RendererRecord.faithful :
    Faithful Board.RendererRecord.toJson Board.RendererRecord.ofJson? :=
  ⟨isPlain_toJson, ofJson?_toJson⟩

namespace Store

variable {s : Store} {entries : Table ByteArray} {α : Type} {toJson : α → Json}
  {ofJson? : Json → Option α}

/-- What is put under a key is read under it, whatever the cache held before. -/
theorem getJson?_putJson_of_faithful (h : s.cache = .memory entries) (hf : Faithful toJson ofJson?)
    (key : String) (a : α) : (s.putJson key (toJson a)).getJson? ofJson? key = some a := by
  rw [getJson?_putJson h (hf.plain a), hf.reads]

/-- All that a board puts in a cache in memory is read there as it was, under any key. -/
theorem memory_returns_values (d : Disk) (entries : Table ByteArray) (key : String) :
    (∀ r : Board.RendererRecord, (putJson ⟨d, .memory entries⟩ key r.toJson).getJson?
      Board.RendererRecord.ofJson? key = some r) ∧
    (∀ l : Censor.WordList, (putJson ⟨d, .memory entries⟩ key l.toJson).getJson?
      Censor.WordList.ofJson? key = some l) ∧
    ∀ p : Parser, (putJson ⟨d, .memory entries⟩ key p.toJson).getJson? Parser.ofJson? key = some p := by
  have hmemory : (Store.mk d (.memory entries)).cache = .memory entries := rfl
  refine ⟨fun r => ?_, fun l => ?_, fun p => ?_⟩
  · exact getJson?_putJson_of_faithful hmemory Board.RendererRecord.faithful key r
  · exact getJson?_putJson_of_faithful hmemory Censor.WordList.faithful key l
  · exact getJson?_putJson_of_faithful hmemory Parser.faithful key p

end Store
end BoardMarkup
