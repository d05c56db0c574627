import BoardMarkup.Settings.Config

/-! What is known of settings that are valid. -/
namespace BoardMarkup.Settings.Config

def schemes : List (List Char) := ["http://".toList, "https://".toList]

def HasScheme (address : String) : Prop := ∃ scheme ∈ schemes, scheme <+: address.toList

theorem requireNonEmpty_eq_ok_iff {field value : String} :
    requireNonEmpty field value = .ok () ↔ value ≠ "" := by
  unfold requireNonEmpty
  split <;> simp [*]

section Checks

variable {ε : Type} {x y : Except ε Unit} {f : Unit → Except ε Unit} {e : ε} {p : Prop} [Decidable p]

theorem bind_eq_ok_iff : x >>= f = .ok () ↔ x = .ok () ∧ f () = .ok () := by
  cases x <;> simp [bind, Except.bind]

private theorem ite_error_bind_eq_ok_iff : (if p then Except.error e >>= f else y) = .ok () ↔
    ¬ p ∧ y = .ok () := by
  by_cases hp : p <;> simp [hp, bind, Except.bind]

private theorem ite_error_eq_ok_iff : (if p then Except.error e else pure ()) = .ok () ↔ ¬ p := by
  by_cases hp : p <;> simp [hp, pure, Except.pure]

end Checks

/--
Settings are valid when the keys and the prefix are named, the keys differ, the prefix is a word, and
the address has a scheme.
-/
theorem validate_eq_ok_iff {c : Config} : c.validate = .ok () ↔
    c.parserKey ≠ "" ∧ c.rendererKey ≠ "" ∧ c.parserKey ≠ c.rendererKey ∧ c.classPrefix ≠ "" ∧
      (∀ ch ∈ c.classPrefix.toList, (ch.isAlphanum || ch == '_') = true) ∧ HasScheme c.url := by
  have hword : (¬ (!c.classPrefix.toList.all fun ch => ch.isAlphanum || ch == '_') = true) ↔
      ∀ ch ∈ c.classPrefix.toList, (ch.isAlphanum || ch == '_') = true := by
    rw [Bool.not_eq_true', Bool.not_eq_false, List.all_eq_true]
  have hscheme :
      (¬ (!"http://".toList.isPrefixOf c.url.toList &&
        !"https://".toList.isPrefixOf c.url.toList) = true) ↔ HasScheme c.url := by
    rw [← Bool.not_or, Bool.not_eq_true', Bool.not_eq_false, Bool.or_eq_true, List.isPrefixOf_iff_prefix,
      List.isPrefixOf_iff_prefix, HasScheme, schemes]
    simp only [List.mem_cons, List.not_mem_nil, or_false, exists_eq_or_imp, exists_eq_left]
  have hurl : HasScheme c.url → c.url ≠ "" := by
    rintro ⟨scheme, hmem, hstart⟩ he
    rw [he] at hstart
    obtain rfl := List.prefix_nil.1 hstart
    revert hmem
    decide
  unfold validate
  simp only [bind_eq_ok_iff, ite_error_bind_eq_ok_iff, ite_error_eq_ok_iff, requireNonEmpty_eq_ok_iff]
  rw [hword]
  refine and_congr Iff.rfl (and_congr Iff.rfl (and_congr Iff.rfl (and_congr Iff.rfl (and_congr Iff.rfl ?_))))
  exact ⟨fun h => hscheme.1 h.2, fun h => ⟨hurl h, hscheme.2 h⟩⟩

/-- What is published has two keys and a name of its own. -/
theorem names_of_validate {c : Config} (h : c.validate = .ok ()) :
    c.parserKey ≠ c.rendererKey ∧ c.classPrefix ≠ "" := by
  obtain ⟨-, -, hkeys, hclass, -⟩ := validate_eq_ok_iff.1 h
  exact ⟨hkeys, hclass⟩

/-- A valid class prefix is a name, and no path. -/
theorem noSlash_of_validate {c : Config} (h : c.validate = .ok ()) : '/' ∉ c.classPrefix.toList := by
  obtain ⟨-, -, -, -, hword, -⟩ := validate_eq_ok_iff.1 h
  intro hm
  exact absurd (hword _ hm) (by decide)

end BoardMarkup.Settings.Config
