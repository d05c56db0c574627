/-! Finite maps from texts, kept in ascending order of their keys. -/
namespace BoardMarkup

/-- Keys ascend by code points, which is also the order of their UTF-8 bytes. -/
structure Table (α : Type) where
  entries : List (String × α)
  ascending : entries.Pairwise (·.1 < ·.1)

namespace Table

variable {α β : Type}

@[ext] theorem ext {t u : Table α} (h : t.entries = u.entries) : t = u := by
  cases t; cases u; cases h; rfl

instance [DecidableEq α] : DecidableEq (Table α) := fun t u =>
  if h : t.entries = u.entries then isTrue (ext h) else isFalse fun e => h (e ▸ rfl)

def empty : Table α := ⟨[], .nil⟩

instance : Inhabited (Table α) := ⟨empty⟩

/-- Places an entry before the first larger key, in place of one with its own key. -/
def insertEntry (k : String) (v : α) : List (String × α) → List (String × α)
  | [] => [(k, v)]
  | e :: es =>
    if k < e.1 then (k, v) :: e :: es
    else if k = e.1 then (k, v) :: es
    else e :: insertEntry k v es

private theorem mem_insertEntry {k : String} {v : α} {e : String × α} {es : List (String × α)}
    (h : e ∈ insertEntry k v es) : e = (k, v) ∨ e ∈ es := by
  induction es with
  | nil => simpa [insertEntry] using h
  | cons d ds ih => grind [insertEntry]

theorem pairwise_insertEntry {k : String} {v : α} {es : List (String × α)}
    (h : es.Pairwise (·.1 < ·.1)) : (insertEntry k v es).Pairwise (·.1 < ·.1) := by
  induction es with
  | nil => simp [insertEntry]
  | cons d ds ih =>
    obtain ⟨hd, hds⟩ := List.pairwise_cons.1 h
    rw [insertEntry]
    split
    · next hk =>
      exact List.pairwise_cons.2 ⟨fun e he => by
        rcases List.mem_cons.1 he with rfl | he
        · exact hk
        · exact String.lt_trans hk (hd e he), h⟩
    · split
      · next hk => exact List.pairwise_cons.2 ⟨fun e he => hk ▸ hd e he, hds⟩
      · next hlt hne =>
        refine List.pairwise_cons.2 ⟨fun e he => ?_, ih hds⟩
        rcases mem_insertEntry he with rfl | he
        · rcases Std.lt_trichotomy d.1 k with hdk | hdk | hdk
          · exact hdk
          · exact absurd hdk.symm hne
          · exact absurd hdk hlt
        · exact hd e he

def get? (t : Table α) (k : String) : Option α :=
  (t.entries.find? (·.1 == k)).map (·.2)

def contains (t : Table α) (k : String) : Bool := t.entries.any (·.1 == k)

def insert (t : Table α) (k : String) (v : α) : Table α :=
  ⟨insertEntry k v t.entries, pairwise_insertEntry t.ascending⟩

def erase (t : Table α) (k : String) : Table α :=
  ⟨t.entries.filter (·.1 != k), t.ascending.filter _⟩

def keys (t : Table α) : List String := t.entries.map (·.1)

def values (t : Table α) : List α := t.entries.map (·.2)

def size (t : Table α) : Nat := t.entries.length

def modify (t : Table α) (k : String) (f : α → α) : Table α :=
  match t.get? k with
  | some v => t.insert k (f v)
  | none => t

def map (f : α → β) (t : Table α) : Table β :=
  ⟨t.entries.map fun e => (e.1, f e.2), by simpa [List.pairwise_map] using t.ascending⟩

/-- Of entries with one key the last counts. -/
def ofList (es : List (String × α)) : Table α :=
  es.foldl (fun t e => t.insert e.1 e.2) empty

end Table
end BoardMarkup
