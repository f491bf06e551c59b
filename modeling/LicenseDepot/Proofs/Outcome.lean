/-!
# Results that may fail

When a composite result is a success, so are its parts, and when it is a failure, one of them is.
Readers are chains of such results, and these equivalences take a chain apart one link at a time.
-/

namespace LicenseDepot

variable {ε ε' α β : Type}

theorem bind_eq_ok_iff {x : Except ε α} {f : α → Except ε β} {b : β} :
    x >>= f = .ok b ↔ ∃ a, x = .ok a ∧ f a = .ok b := by
  cases x with
  | error e => simp [bind, Except.bind]
  | ok a => simp [bind, Except.bind]

theorem map_eq_ok_iff {x : Except ε α} {f : α → β} {b : β} :
    x.map f = .ok b ↔ ∃ a, x = .ok a ∧ f a = b := by
  cases x <;> simp [Except.map]

theorem bind_eq_error_iff {x : Except ε α} {f : α → Except ε β} {e : ε} :
    x >>= f = .error e ↔ x = .error e ∨ ∃ a, x = .ok a ∧ f a = .error e := by
  cases x with
  | error e' => simp [bind, Except.bind]
  | ok a => simp [bind, Except.bind]

theorem map_eq_error_iff {x : Except ε α} {f : α → β} {e : ε} :
    x.map f = .error e ↔ x = .error e := by
  cases x <;> simp [Except.map]

@[simp] theorem mapError_ok (a : α) (f : ε → ε') :
    (.ok a : Except ε α).mapError f = .ok a := rfl

@[simp] theorem mapError_error (e : ε) (f : ε → ε') :
    (.error e : Except ε α).mapError f = .error (f e) := rfl

theorem mapError_eq_ok_iff {x : Except ε α} {f : ε → ε'} {a : α} :
    x.mapError f = .ok a ↔ x = .ok a := by
  cases x <;> simp

theorem mapError_eq_error_iff {x : Except ε α} {f : ε → ε'} {e' : ε'} :
    x.mapError f = .error e' ↔ ∃ e, x = .error e ∧ f e = e' := by
  cases x <;> simp

/-- A chain fails just if its first link does or, whatever that gives, the rest. -/
theorem exists_bind_error_iff {x : Except ε α} {f : α → Except ε β} {P : Prop}
    (h : ∀ a, (∃ e, f a = .error e) ↔ P) :
    (∃ e, x >>= f = .error e) ↔ (∃ e, x = .error e) ∨ P := by
  cases x with
  | error e => simp [bind, Except.bind]
  | ok a => simpa [bind, Except.bind] using h a

theorem exists_map_error_iff {x : Except ε α} {f : α → β} :
    (∃ e, x.map f = .error e) ↔ ∃ e, x = .error e := by
  cases x <;> simp [Except.map]

theorem exists_mapError_error_iff {x : Except ε α} {f : ε → ε'} :
    (∃ e, x.mapError f = .error e) ↔ ∃ e, x = .error e := by
  cases x <;> simp

theorem toOption_mapError (x : Except ε α) (f : ε → ε') :
    (x.mapError f).toOption = x.toOption := by
  cases x <;> rfl

theorem toOption_eq_some_iff {x : Except ε α} {a : α} : x.toOption = some a ↔ x = .ok a := by
  cases x <;> simp [Except.toOption]

/-- What is found under a key is in the list, under that key. -/
theorem mem_of_lookup [BEq α] [LawfulBEq α] {l : List (α × β)} {a : α} {b : β}
    (h : l.lookup a = some b) : (a, b) ∈ l := by
  obtain ⟨before, after, rfl, -⟩ := List.lookup_eq_some_iff.1 h
  simp

/-- Where every part of a list succeeds, so does the list. -/
theorem mapM_eq_ok_map {f : α → Except ε β} {g : α → β} {l : List α}
    (h : ∀ a ∈ l, f a = .ok (g a)) : l.mapM f = .ok (l.map g) := by
  induction l with
  | nil => rfl
  | cons a l ih =>
    rw [List.mapM_cons, h a List.mem_cons_self, ih fun b hb => h b (List.mem_cons_of_mem a hb)]
    rfl

/-- Where a list succeeds, each of its results is that of a part. -/
theorem exists_of_mem_of_mapM_eq_ok {f : α → Except ε β} {l : List α} {r : List β}
    (h : l.mapM f = .ok r) : ∀ b ∈ r, ∃ a ∈ l, f a = .ok b := by
  induction l generalizing r with
  | nil =>
    cases h
    simp
  | cons a l ih =>
    rw [List.mapM_cons] at h
    obtain ⟨b, hb, h⟩ := bind_eq_ok_iff.1 h
    obtain ⟨bs, hbs, h⟩ := bind_eq_ok_iff.1 h
    cases h
    intro c hc
    rcases List.mem_cons.1 hc with rfl | hc
    · exact ⟨a, List.mem_cons_self, hb⟩
    · obtain ⟨a', ha', hc⟩ := ih hbs c hc
      exact ⟨a', List.mem_cons_of_mem a ha', hc⟩

/-- What holds throughout each part of a list holds throughout the parts put together. -/
theorem forall_mem_flatten_of_mapM {P : β → Prop} {f : α → Except ε (List β)} {l : List α}
    {parts : List (List β)} (hf : ∀ a ∈ l, ∀ part, f a = .ok part → ∀ b ∈ part, P b)
    (h : l.mapM f = .ok parts) : ∀ b ∈ parts.flatten, P b := by
  intro b hb
  obtain ⟨part, hpart, hb⟩ := List.mem_flatten.1 hb
  obtain ⟨a, ha, hok⟩ := exists_of_mem_of_mapM_eq_ok h part hpart
  exact hf a ha part hok b hb

/-- What each step of a fold that succeeds keeps, the fold keeps. -/
theorem of_foldlM_eq_ok {P : β → Prop} {f : β → α → Except ε β} {l : List α} {b b' : β}
    (hstep : ∀ b, P b → ∀ a ∈ l, ∀ b', f b a = .ok b' → P b') (hb : P b)
    (h : l.foldlM f b = .ok b') : P b' := by
  induction l generalizing b with
  | nil =>
    cases h
    exact hb
  | cons a l ih =>
    rw [List.foldlM_cons] at h
    obtain ⟨b₁, hb₁, h⟩ := bind_eq_ok_iff.1 h
    exact ih (fun b hb a' ha' => hstep b hb a' (List.mem_cons_of_mem a ha'))
      (hstep b hb a List.mem_cons_self b₁ hb₁) h

/-- Where the success of a part is known in advance, so is that of a list of parts. -/
theorem mapM_eq_ok_iff {f : α → Except ε β} {g : α → β} {P : α → Prop}
    (hf : ∀ a b, f a = .ok b ↔ P a ∧ b = g a) {l : List α} {r : List β} :
    l.mapM f = .ok r ↔ (∀ a ∈ l, P a) ∧ r = l.map g := by
  constructor
  · intro h
    have hP : ∀ a ∈ l, P a := by
      induction l generalizing r with
      | nil => simp
      | cons a l ih =>
        rw [List.mapM_cons] at h
        obtain ⟨b, hb, h⟩ := bind_eq_ok_iff.1 h
        obtain ⟨bs, hbs, -⟩ := bind_eq_ok_iff.1 h
        intro a' ha'
        rcases List.mem_cons.1 ha' with rfl | ha'
        · exact ((hf a' b).1 hb).1
        · exact ih hbs a' ha'
    rw [mapM_eq_ok_map fun a ha => (hf a (g a)).2 ⟨hP a ha, rfl⟩] at h
    cases h
    exact ⟨hP, rfl⟩
  · rintro ⟨hP, rfl⟩
    exact mapM_eq_ok_map fun a ha => (hf a (g a)).2 ⟨hP a ha, rfl⟩

/-! Which failure a composite result ends with: that of the first part that fails. -/

/-- The failure of a result, if it is one. -/
def failure? : Except ε α → Option ε
  | .error e => some e
  | .ok _ => none

theorem failure?_eq_some_iff {x : Except ε α} {e : ε} : failure? x = some e ↔ x = .error e := by
  cases x <;> simp [failure?]

theorem failure?_eq_none_iff {x : Except ε α} : failure? x = none ↔ ∃ a, x = .ok a := by
  cases x <;> simp [failure?]

theorem failure?_map (x : Except ε α) (f : α → β) : failure? (x.map f) = failure? x := by
  cases x <;> rfl

/-- A chain fails as its first link does or, if that does not fail, as the rest. -/
theorem failure?_bind {x : Except ε α} {f : α → Except ε β} {rest : Option ε}
    (h : ∀ a, x = .ok a → failure? (f a) = rest) :
    failure? (x >>= f) = (failure? x).or rest := by
  cases x with
  | error e => rfl
  | ok a => exact h a rfl

theorem failure?_bind_pure (x : Except ε α) (f : α → β) :
    failure? (x >>= fun a => pure (f a)) = failure? x := by
  cases x <;> rfl

/-- A list fails as the first of its parts that does. -/
theorem failure?_mapM {γ : Type} {f : α → Except ε β} {g : α → List γ} {p : γ → Bool}
    {fault : γ → ε} (h : ∀ a, failure? (f a) = ((g a).find? p).map fault) (l : List α) :
    failure? (l.mapM f) = ((l.flatMap g).find? p).map fault := by
  induction l with
  | nil => rfl
  | cons a l ih =>
    rw [List.mapM_cons, List.flatMap_cons, List.find?_append, Option.map_or, ← h a, ← ih]
    exact failure?_bind fun b _ => failure?_bind_pure _ _

end LicenseDepot
