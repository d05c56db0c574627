import BoardMarkup.Proofs.Json.Layout

/-! Types whose values are read from what is written of them. -/
namespace BoardMarkup.Json

/-- Values are written plainly, and read from their JSON as they were. -/
structure Faithful {α : Type} (toJson : α → Json) (ofJson? : Json → Option α) : Prop where
  plain : ∀ a, (toJson a).isPlain = true
  reads : ∀ a, ofJson? (toJson a) = some a

variable {α : Type} {toJson : α → Json} {ofJson? : Json → Option α} {a b : α}

theorem Faithful.read_write (h : Faithful toJson ofJson?) (a : α) :
    (ofBytes? (toJson a).write.toUTF8).bind ofJson? = some a := by
  rw [ofBytes?_write (h.plain a), Option.bind_some, h.reads]

theorem Faithful.eq_of_bytes (h : Faithful toJson ofJson?)
    (he : (toJson a).write.toUTF8 = (toJson b).write.toUTF8) : a = b := by
  have hread := h.read_write a
  rw [he, h.read_write b] at hread
  exact (Option.some.inj hread).symm

end BoardMarkup.Json
