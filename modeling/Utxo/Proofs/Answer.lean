/-
**Answers that are known in full.**

Of a check that accepts or refuses, the refusals are told by a predicate of reasons: each reason refuses,
and where there is no reason there is an acceptance. An acceptance can be computed alone; that of a sequence
is one of each of its parts. A list that is looked through is refused at its first element that is not
acceptable.
-/

namespace Utxo

/-- **A refusal is its reason**, if each reason refuses and there is one unless there is an acceptance. -/
theorem eq_error_iff_of_refused {ε α : Type} {answer : Except ε α} {Refused : ε → Prop} {fault : ε}
    (refuses : ∀ {fault}, Refused fault → answer = .error fault)
    (decided : (∃ value, answer = .ok value) ∨ ∃ fault, Refused fault) :
    answer = .error fault ↔ Refused fault := by
  refine ⟨fun failed => ?_, refuses⟩
  rcases decided with ⟨value, accepted⟩ | ⟨other, refused⟩
  · rw [accepted] at failed
    cases failed
  · rw [refuses refused] at failed
    cases failed
    exact refused

/-- An answer can be computed without its refusals, which need not be told apart. -/
theorem toOption_eq_some_iff {ε α : Type} {answer : Except ε α} {value : α} :
    answer.toOption = some value ↔ answer = .ok value := by
  cases answer with
  | ok other => simp [Except.toOption]
  | error fault => simp [Except.toOption]

/-- Two computations in a row give an answer just where both do. -/
theorem exceptBind_eq_ok_iff {ε α β : Type} {first : Except ε α} {next : α → Except ε β}
    {value : β} :
    first >>= next = .ok value ↔ ∃ middle, first = .ok middle ∧ next middle = .ok value := by
  cases first with
  | ok middle =>
    refine ⟨fun read => ⟨middle, rfl, read⟩, ?_⟩
    rintro ⟨_, ⟨⟩, read⟩
    exact read
  | error fault =>
    refine ⟨fun read => (nomatch read), ?_⟩
    rintro ⟨_, ⟨⟩, -⟩

theorem exceptMap_eq_ok_iff {ε α β : Type} {first : Except ε α} {f : α → β} {value : β} :
    f <$> first = .ok value ↔ ∃ middle, first = .ok middle ∧ f middle = value := by
  cases first with
  | ok middle =>
    show Except.ok (f middle) = .ok value ↔ _
    simp
  | error fault =>
    refine ⟨fun read => (nomatch read), ?_⟩
    rintro ⟨_, ⟨⟩, -⟩

/-- The elements of a list are all acceptable, or there is a first one that is not. -/
theorem forall_mem_or_exists_first {α : Type} (Acceptable : α → Prop) (items : List α) :
    (∀ item ∈ items, Acceptable item) ∨ ∃ front item back, items = front ++ item :: back ∧
      (∀ item ∈ front, Acceptable item) ∧ ¬ Acceptable item := by
  induction items with
  | nil => exact Or.inl (by simp)
  | cons item rest ih =>
    by_cases acceptable : Acceptable item
    · rcases ih with all | ⟨front, foreign, back, rfl, inside, outside⟩
      · exact Or.inl (List.forall_mem_cons.mpr ⟨acceptable, all⟩)
      · exact Or.inr ⟨item :: front, foreign, back, rfl, List.forall_mem_cons.mpr ⟨acceptable, inside⟩,
          outside⟩
    · exact Or.inr ⟨[], item, rest, rfl, by simp, acceptable⟩

/-- There is one first element that is not acceptable. -/
theorem first_unique {α : Type} {Acceptable : α → Prop} {front other back rest : List α} {item foreign : α}
    (same : front ++ item :: back = other ++ foreign :: rest) (inside : ∀ item ∈ front, Acceptable item)
    (outside : ¬ Acceptable item) (alsoInside : ∀ item ∈ other, Acceptable item)
    (alsoOutside : ¬ Acceptable foreign) : front = other ∧ item = foreign := by
  induction front generalizing other with
  | nil =>
    cases other with
    | nil => exact ⟨rfl, (List.cons.inj same).1⟩
    | cons head tail =>
      obtain ⟨rfl, -⟩ := List.cons.inj same
      exact absurd (alsoInside item List.mem_cons_self) outside
  | cons head tail ih =>
    cases other with
    | nil =>
      obtain ⟨rfl, -⟩ := List.cons.inj same
      exact absurd (inside head List.mem_cons_self) alsoOutside
    | cons otherHead otherTail =>
      obtain ⟨rfl, behind⟩ := List.cons.inj same
      rw [List.forall_mem_cons] at inside alsoInside
      obtain ⟨rfl, rfl⟩ := ih behind inside.2 alsoInside.2
      exact ⟨rfl, rfl⟩

end Utxo
