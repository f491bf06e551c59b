import LicenseDepot.Proofs.Json.Number
import LicenseDepot.Proofs.Json.Text

/-!
# Values are read back

Reading takes back a value that has been written in any layout, as long as there is nothing but
space around its items. Main statement: `read?_writeAt`. The proof is an induction on the fuel: a
value takes no more units than it has characters, so the length of the text pays for it.
-/

namespace LicenseDepot.Json

open Text Numeral

/-! ## Space -/

/-- The characters that a reader skips between the parts of a value. -/
def IsSpace (c : Char) : Prop := c = ' ' ∨ c = '\n' ∨ c = '\r' ∨ c = '\t'

instance (c : Char) : Decidable (IsSpace c) :=
  inferInstanceAs (Decidable (c = ' ' ∨ c = '\n' ∨ c = '\r' ∨ c = '\t'))

theorem skipSpace_append {blanks : List Char} (h : ∀ c ∈ blanks, IsSpace c) (s : List Char) :
    skipSpace (blanks ++ s) = skipSpace s := by
  rw [skipSpace, skipSpace, List.dropWhile_append_of_pos]
  intro c hc
  obtain rfl | rfl | rfl | rfl := h c hc <;> rfl

theorem skipSpace_cons {c : Char} (h : ¬ IsSpace c) (s : List Char) :
    skipSpace (c :: s) = c :: s := by
  rw [IsSpace] at h
  rw [skipSpace, List.dropWhile_cons_of_neg]
  simpa [or_assoc] using h

/-- Whether a layout puts nothing but space around the items. -/
structure Spacing.IsBlank (sp : Spacing) : Prop where
  front : ∀ depth, ∀ c ∈ sp.front depth, IsSpace c
  between : ∀ depth, ∀ c ∈ sp.between depth, IsSpace c
  back : ∀ depth, ∀ c ∈ sp.back depth, IsSpace c

theorem isBlank_oneLine : oneLine.IsBlank where
  front _ _ h := nomatch h
  between _ _ h := .inl (List.mem_singleton.1 h)
  back _ _ h := nomatch h

theorem isSpace_of_mem_newLine {depth : Nat} : ∀ c ∈ newLine depth, IsSpace c := by
  intro c hc
  rw [newLine, List.mem_cons] at hc
  rcases hc with rfl | hc
  · decide
  · rw [List.eq_of_mem_replicate hc]
    decide

theorem isBlank_tall : tall.IsBlank :=
  ⟨fun _ => isSpace_of_mem_newLine, fun _ => isSpace_of_mem_newLine,
    fun _ => isSpace_of_mem_newLine⟩

/-! ## One step of the reader -/

section Step

variable {fuel : Nat} {blanks s : List Char}

/-- Space in front of a value counts for nothing. -/
theorem readValue?_blanks (h : ∀ c ∈ blanks, IsSpace c) :
    readValue? fuel (blanks ++ s) = readValue? fuel s := by
  cases fuel with
  | zero => rw [readValue?, readValue?]
  | succ fuel => rw [readValue?, readValue?, skipSpace_append h]

theorem readItems?_blanks {done : List Json} (h : ∀ c ∈ blanks, IsSpace c) :
    readItems? fuel done (blanks ++ s) = readItems? fuel done s := by
  cases fuel with
  | zero => rw [readItems?, readItems?]
  | succ fuel => rw [readItems?, readItems?, readValue?_blanks h]

theorem readMembers?_blanks {done : List (String × Json)} (h : ∀ c ∈ blanks, IsSpace c) :
    readMembers? fuel done (blanks ++ s) = readMembers? fuel done s := by
  cases fuel with
  | zero => rw [readMembers?, readMembers?]
  | succ fuel => rw [readMembers?, readMembers?, skipSpace_append h]

theorem readValue?_text (t : String) (hfuel : (textTail t).length ≤ fuel) :
    readValue? (fuel + 1) (writeText t ++ s) = some (.text t, s) := by
  rw [writeText_eq, List.cons_append, readValue?, skipSpace_cons (by decide)]
  simp only [readText?_textTail t hfuel, Option.map_some]

theorem readValue?_null : readValue? (fuel + 1) ("null".toList ++ s) = some (.null, s) := by
  change readValue? (fuel + 1) ('n' :: 'u' :: 'l' :: 'l' :: s) = _
  rw [readValue?, skipSpace_cons (by decide)]
  rfl

theorem readValue?_bool (b : Bool) :
    readValue? (fuel + 1) ((if b then "true" else "false").toList ++ s) = some (.bool b, s) := by
  cases b with
  | true =>
    change readValue? (fuel + 1) ('t' :: 'r' :: 'u' :: 'e' :: s) = _
    rw [readValue?, skipSpace_cons (by decide)]
    rfl
  | false =>
    change readValue? (fuel + 1) ('f' :: 'a' :: 'l' :: 's' :: 'e' :: s) = _
    rw [readValue?, skipSpace_cons (by decide)]
    rfl

/-- A text that begins with a digit or a minus sign is read as a number. -/
theorem readValue?_numeral {c : Char} (h : c.isDigit = true ∨ c = '-') :
    readValue? (fuel + 1) (c :: s) = readNumber? (c :: s) := by
  have hne (d : Char) (hd : d.isDigit = false ∧ d ≠ '-') : c ≠ d := by
    rintro rfl
    rcases h with h | h
    · rw [hd.1] at h
      cases h
    · exact hd.2 h
  have hspace : ¬ IsSpace c := by
    rintro (h | h | h | h)
    all_goals exact hne _ (by decide) h
  have hword (word : String) {d : Char} {ds : List Char} (heq : word.toList = d :: ds)
      (hd : d.isDigit = false ∧ d ≠ '-') : afterWord? word (c :: s) = none := by
    rw [afterWord?, heq, if_neg]
    simp [(hne d hd).symm]
  rw [readValue?, skipSpace_cons hspace]
  split
  · next heq => exact absurd (List.cons.inj heq).1 (hne _ (by decide))
  · next heq => exact absurd (List.cons.inj heq).1 (hne _ (by decide))
  · next heq => exact absurd (List.cons.inj heq).1 (hne _ (by decide))
  · rw [hword "null" rfl (by decide), hword "true" rfl (by decide), hword "false" rfl (by decide)]

theorem readItems?_last {done : List Json} {item : Json} {rest : List Char}
    (hblanks : ∀ c ∈ blanks, IsSpace c)
    (h : readValue? fuel s = some (item, blanks ++ ']' :: rest)) :
    readItems? (fuel + 1) done s = some (done.reverse ++ [item], rest) := by
  rw [readItems?, h]
  simp only [skipSpace_append hblanks, skipSpace_cons (show ¬ IsSpace ']' by decide),
    List.reverse_cons]

theorem readItems?_next {done : List Json} {item : Json} {rest : List Char}
    (h : readValue? fuel s = some (item, ',' :: rest)) :
    readItems? (fuel + 1) done s = readItems? fuel (item :: done) rest := by
  rw [readItems?, h]
  simp only [skipSpace_cons (show ¬ IsSpace ',' by decide)]

/-- A list that begins with something that can begin a value has items. -/
theorem readValue?_list {items : List Json} {c : Char} {rest : List Char}
    (hblanks : ∀ c ∈ blanks, IsSpace c) (hc : ¬ IsSpace c ∧ c ≠ ']')
    (h : readItems? fuel [] (c :: s) = some (items, rest)) :
    readValue? (fuel + 1) ('[' :: (blanks ++ c :: s)) = some (.list items, rest) := by
  rw [readValue?, skipSpace_cons (by decide)]
  simp only [skipSpace_append hblanks, skipSpace_cons hc.1]
  split
  · next heq => exact absurd (List.cons.inj heq).1 hc.2
  · rw [h, Option.map_some]

/-- A member is a key and a value; a comma after it announces another one, a brace the end. -/
theorem readMembers?_member {done : List (String × Json)} {key : String} {value : Json}
    {c : Char} {rest : List Char} (hkey : (textTail key).length ≤ fuel)
    (hblanks : ∀ c ∈ blanks, IsSpace c) (hc : ¬ IsSpace c)
    (h : readValue? fuel s = some (value, blanks ++ c :: rest)) :
    (c = ',' → readMembers? (fuel + 1) done (writeText key ++ (": ".toList ++ s))
      = readMembers? fuel ((key, value) :: done) rest) ∧
    (c = '\x7d' → readMembers? (fuel + 1) done (writeText key ++ (": ".toList ++ s))
      = some (done.reverse ++ [(key, value)], rest)) := by
  have hcolon : skipSpace (": ".toList ++ s) = ':' :: ([' '] ++ s) :=
    skipSpace_cons (by decide) _
  rw [writeText_eq, List.cons_append, readMembers?, skipSpace_cons (by decide)]
  simp only [readText?_textTail key hkey, hcolon]
  rw [readValue?_blanks (forall_mem_of_all (by decide)), h]
  simp only [skipSpace_append hblanks, skipSpace_cons hc, ← List.reverse_cons]
  constructor
  · rintro rfl
    rfl
  · rintro rfl
    rfl

/-- An object that begins with a text has members. -/
theorem readValue?_object {members : List (String × Json)} {rest : List Char}
    (hblanks : ∀ c ∈ blanks, IsSpace c)
    (h : readMembers? fuel [] ('"' :: s) = some (members, rest)) :
    readValue? (fuel + 1) ('\x7b' :: (blanks ++ '"' :: s)) = some (.object members, rest) := by
  rw [readValue?, skipSpace_cons (by decide)]
  simp only [skipSpace_append hblanks, skipSpace_cons (show ¬ IsSpace '"' by decide)]
  change (readMembers? fuel [] ('"' :: s)).map _ = _
  rw [h, Option.map_some]

end Step

/-! ## Values -/

/-- What can be the first character of a value. -/
def StartsValue (c : Char) : Prop :=
  c.isDigit = true ∨ c ∈ ['"', '-', '[', '\x7b', 'f', 'n', 't']

theorem StartsValue.not_space {c : Char} (h : StartsValue c) : ¬ IsSpace c ∧ c ≠ ']' := by
  constructor
  · rintro (rfl | rfl | rfl | rfl) <;> exact absurd h (by unfold StartsValue; decide)
  · rintro rfl
    exact absurd h (by unfold StartsValue; decide)

theorem exists_writeAt_eq_cons {j : Json} (h : AllCanonical j.numbers) (sp : Spacing)
    (depth : Nat) : ∃ c s, writeAt sp depth j = c :: s ∧ StartsValue c := by
  cases j with
  | null => exact ⟨'n', "ull".toList, rfl, .inr (by decide)⟩
  | bool b =>
    cases b with
    | true => exact ⟨'t', "rue".toList, rfl, .inr (by decide)⟩
    | false => exact ⟨'f', "alse".toList, rfl, .inr (by decide)⟩
  | number x =>
    obtain ⟨c, s, hs, hc⟩ := exists_writeNumber_eq_cons h
    refine ⟨c, s, hs, hc.imp_right ?_⟩
    rintro rfl
    decide
  | text t => exact ⟨'"', textTail t, rfl, .inr (by decide)⟩
  | list items => cases items <;> exact ⟨'[', _, rfl, .inr (by decide)⟩
  | object members => cases members <;> exact ⟨'\x7b', _, rfl, .inr (by decide)⟩

theorem AllCanonical.append {xs ys : List Number} (h : AllCanonical (xs ++ ys)) :
    AllCanonical xs ∧ AllCanonical ys :=
  ⟨fun x hx => h x (List.mem_append_left _ hx), fun x hx => h x (List.mem_append_right _ hx)⟩

/-- Neither the end of a value nor space extends a number. -/
theorem endsNumber_append {blanks : List Char} (hblanks : ∀ c ∈ blanks, IsSpace c) {c : Char}
    (hc : c = ',' ∨ c = ']' ∨ c = '\x7d') (s : List Char) : EndsNumber (blanks ++ c :: s) := by
  cases blanks with
  | nil =>
    rintro d ⟨⟩
    obtain rfl | rfl | rfl := hc <;> decide
  | cons b blanks =>
    rintro d ⟨⟩
    obtain rfl | rfl | rfl | rfl := hblanks b List.mem_cons_self <;> decide

theorem endsNumber_comma (s : List Char) : EndsNumber (',' :: s) := by
  rintro c ⟨⟩
  decide

/-- What an amount of fuel is enough for: to take back values, the items of lists and the members of
objects with fewer characters. -/
structure ReadsBack (sp : Spacing) (fuel : Nat) : Prop where
  value : ∀ depth j rest, AllCanonical j.numbers → EndsNumber rest →
    (writeAt sp depth j).length ≤ fuel →
    readValue? fuel (writeAt sp depth j ++ rest) = some (j, rest)
  items : ∀ depth item items done rest, AllCanonical (numbersOfItems (item :: items)) →
    (writeAt sp (depth + 1) item).length + (writeItems sp depth items).length < fuel →
    readItems? fuel done (writeAt sp (depth + 1) item ++ (writeItems sp depth items
      ++ (sp.back depth ++ ']' :: rest))) = some (done.reverse ++ item :: items, rest)
  members : ∀ depth key value members done rest,
    AllCanonical (numbersOfMembers ((key, value) :: members)) →
    (writeText key).length + (writeAt sp (depth + 1) value).length
      + (writeMembers sp depth members).length < fuel →
    readMembers? fuel done (writeText key ++ (": ".toList ++ (writeAt sp (depth + 1) value
      ++ (writeMembers sp depth members ++ (sp.back depth ++ '\x7d' :: rest)))))
      = some (done.reverse ++ (key, value) :: members, rest)

variable {sp : Spacing} {fuel : Nat}

theorem ReadsBack.value_succ (hsp : sp.IsBlank) (ih : ReadsBack sp fuel) (depth : Nat) (j : Json)
    (rest : List Char) (h : AllCanonical j.numbers) (hrest : EndsNumber rest)
    (hfuel : (writeAt sp depth j).length ≤ fuel + 1) :
    readValue? (fuel + 1) (writeAt sp depth j ++ rest) = some (j, rest) := by
  cases j with
  | null => exact readValue?_null
  | bool b => exact readValue?_bool b
  | number x =>
    obtain ⟨c, s, hs, hc⟩ := exists_writeNumber_eq_cons h
    rw [writeAt, hs, List.cons_append, readValue?_numeral hc, ← List.cons_append, ← hs,
      readNumber?_writeNumber h hrest]
  | text t =>
    rw [writeAt] at hfuel ⊢
    exact readValue?_text t (Nat.le_of_succ_le_succ hfuel)
  | list items =>
    cases items with
    | nil =>
      change readValue? (fuel + 1) ('[' :: ']' :: rest) = _
      rw [readValue?, skipSpace_cons (by decide)]
      simp only [skipSpace_cons (show ¬ IsSpace ']' by decide)]
    | cons item items =>
      obtain ⟨c, s, hs, hc⟩ := exists_writeAt_eq_cons (h.append).1 sp (depth + 1)
      simp only [writeAt, List.length_cons, List.length_append, List.length_nil] at hfuel
      have hitems := ih.items depth item items [] rest h (by omega)
      rw [hs, List.cons_append] at hitems
      simp only [writeAt, hs, List.cons_append, List.append_assoc, List.nil_append]
      exact readValue?_list (hsp.front depth) hc.not_space hitems
  | object members =>
    cases members with
    | nil =>
      change readValue? (fuel + 1) ('\x7b' :: '\x7d' :: rest) = _
      rw [readValue?, skipSpace_cons (by decide)]
      simp only [skipSpace_cons (show ¬ IsSpace '\x7d' by decide)]
    | cons member members =>
      obtain ⟨key, value⟩ := member
      simp only [writeAt, List.length_cons, List.length_append, List.length_nil] at hfuel
      have hmembers := ih.members depth key value members [] rest h (by omega)
      rw [writeText_eq, List.cons_append] at hmembers
      simp only [writeAt, writeText_eq, List.cons_append, List.append_assoc, List.nil_append]
      exact readValue?_object (hsp.front depth) hmembers

theorem ReadsBack.items_succ (hsp : sp.IsBlank) (ih : ReadsBack sp fuel) (depth : Nat)
    (item : Json) (items done : List Json) (rest : List Char)
    (h : AllCanonical (numbersOfItems (item :: items)))
    (hfuel : (writeAt sp (depth + 1) item).length + (writeItems sp depth items).length < fuel + 1) :
    readItems? (fuel + 1) done (writeAt sp (depth + 1) item ++ (writeItems sp depth items
      ++ (sp.back depth ++ ']' :: rest))) = some (done.reverse ++ item :: items, rest) := by
  obtain ⟨hitem, hitems⟩ := h.append
  cases items with
  | nil =>
    refine readItems?_last (hsp.back depth) (ih.value _ _ _ hitem ?_ (by omega))
    exact endsNumber_append (hsp.back depth) (by decide) rest
  | cons next items =>
    simp only [writeItems, List.length_cons, List.length_append] at hfuel
    simp only [writeItems, List.cons_append, List.append_assoc]
    have hvalue := ih.value (depth + 1) item (',' :: (sp.between depth
      ++ (writeAt sp (depth + 1) next ++ (writeItems sp depth items
        ++ (sp.back depth ++ ']' :: rest))))) hitem
      (endsNumber_comma _) (by omega)
    rw [readItems?_next hvalue, readItems?_blanks (hsp.between depth),
      ih.items depth next items _ rest hitems (by omega), List.reverse_cons, List.append_assoc,
      List.singleton_append]

theorem ReadsBack.members_succ (hsp : sp.IsBlank) (ih : ReadsBack sp fuel) (depth : Nat)
    (key : String) (value : Json) (members done : List (String × Json)) (rest : List Char)
    (h : AllCanonical (numbersOfMembers ((key, value) :: members)))
    (hfuel : (writeText key).length + (writeAt sp (depth + 1) value).length
      + (writeMembers sp depth members).length < fuel + 1) :
    readMembers? (fuel + 1) done (writeText key ++ (": ".toList ++ (writeAt sp (depth + 1) value
      ++ (writeMembers sp depth members ++ (sp.back depth ++ '\x7d' :: rest)))))
      = some (done.reverse ++ (key, value) :: members, rest) := by
  obtain ⟨hitem, hmembers⟩ := h.append
  have hkey : (textTail key).length ≤ fuel := by
    rw [writeText_eq, List.length_cons] at hfuel
    omega
  cases members with
  | nil =>
    refine (readMembers?_member hkey (hsp.back depth) (by decide)
      (ih.value _ _ _ hitem ?_ (by omega))).2 rfl
    exact endsNumber_append (hsp.back depth) (by decide) rest
  | cons next members =>
    obtain ⟨nextKey, nextValue⟩ := next
    simp only [writeMembers, List.length_cons, List.length_append] at hfuel
    simp only [writeMembers, List.cons_append, List.append_assoc]
    have hvalue := ih.value (depth + 1) value (',' :: (sp.between depth ++ (writeText nextKey
      ++ (": ".toList ++ (writeAt sp (depth + 1) nextValue ++ (writeMembers sp depth members
        ++ (sp.back depth ++ '\x7d' :: rest))))))) hitem
      (endsNumber_comma _) (by omega)
    have hnil : ∀ c ∈ ([] : List Char), IsSpace c := nofun
    rw [(readMembers?_member hkey hnil (by decide) hvalue).1 rfl,
      readMembers?_blanks (hsp.between depth),
      ih.members depth nextKey nextValue members _ rest hmembers (by omega), List.reverse_cons,
      List.append_assoc, List.singleton_append]

theorem readsBack (hsp : sp.IsBlank) (fuel : Nat) : ReadsBack sp fuel := by
  induction fuel with
  | zero =>
    refine ⟨?_, ?_, ?_⟩
    · intro depth j rest h hrest hfuel
      obtain ⟨c, s, hs, -⟩ := exists_writeAt_eq_cons h sp depth
      rw [hs] at hfuel
      cases hfuel
    · intro depth item items done rest h hfuel
      cases hfuel
    · intro depth key value members done rest h hfuel
      cases hfuel
  | succ fuel ih => exact ⟨ih.value_succ hsp, ih.items_succ hsp, ih.members_succ hsp⟩

/-- A value is read back as it has been written, in any layout. -/
theorem read?_writeAt (hsp : sp.IsBlank) {j : Json} (h : AllCanonical j.numbers) (depth : Nat) :
    read? (writeAt sp depth j) = some j := by
  have hvalue := (readsBack hsp (2 * (writeAt sp depth j).length + 1)).value depth j [] h
    (fun _ hc => nomatch hc) (by omega)
  rw [List.append_nil] at hvalue
  rw [read?, hvalue]
  rfl

end LicenseDepot.Json
