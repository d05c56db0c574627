import BoardMarkup.Store
import BoardMarkup.Proofs.Json.Layout
import BoardMarkup.Proofs.Table

/-! What a store in memory returns after a value is put under a key. -/
namespace BoardMarkup.Store

variable {s : Store} {entries : Table ByteArray} {key k : String} {v : Json} {α : Type}
  {f : Json → Option α}

theorem putJson_memory (h : s.cache = .memory entries) :
    s.putJson key v = { s with cache := .memory (entries.insert key v.write.toUTF8) } := by
  rw [putJson, putText, put, h]

theorem get?_putJson (h : s.cache = .memory entries) :
    (s.putJson key v).get? k = if k = key then some v.write.toUTF8 else s.get? k := by
  rw [putJson_memory h, get?, get?, h]
  exact Table.get?_insert _ _ _ _

theorem getJson?_putJson (h : s.cache = .memory entries) (hv : v.isPlain = true) :
    (s.putJson key v).getJson? f key = f v := by
  rw [getJson?, get?_putJson h, if_pos rfl]
  simp only [Option.bind_eq_bind, Option.bind_some, Json.ofBytes?_write hv]

theorem getJson?_putJson_ne (h : s.cache = .memory entries) (hk : k ≠ key) :
    (s.putJson key v).getJson? f k = s.getJson? f k := by
  rw [getJson?, getJson?, get?_putJson h, if_neg hk]

theorem getJson?_congr {t : Store} (h : s.cache = .memory entries) (ht : t.cache = s.cache) :
    t.getJson? f k = s.getJson? f k := by
  rw [getJson?, getJson?, get?, get?, ht, h]

end BoardMarkup.Store
