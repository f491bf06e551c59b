import LicenseDepot.Proofs.Json.RoundTrip

/-!
# Layouts

The layouts of a value differ in the space around its items only. `unspaced` drops the space of a
JSON text that stands outside of its texts; what is left does not depend on the layout
(`unspaced_writeAt`). On one line every character lies between the space and the tilde
(`isVisible_of_mem_writeAt`).
-/

namespace LicenseDepot.Json

open Text Numeral

/-! ## Characters -/

/-- What a numeral is made of. -/
theorem char_of_mem_writeNumber {x : Number} (h : AllCanonical [x]) {c : Char}
    (hc : c ∈ writeNumber x) : c.isDigit = true ∨ c ∈ ['-', '.', 'e', '+'] := by
  obtain ⟨negative, p, hx⟩ := exists_isNumeral h
  have hchars : ∀ c ∈ p.chars, c.isDigit = true ∨ c ∈ ['-', '.', 'e', '+'] := by
    intro c hc
    rw [Parts.chars, List.mem_append, List.mem_append] at hc
    rcases hc with (hc | hc) | hc
    · exact .inl (hx.wellFormed.whole.isDigit c hc)
    · cases hfraction : p.fraction with
      | none =>
        rw [hfraction] at hc
        cases hc
      | some digits =>
        rw [hfraction, Parts.fractionChars, List.mem_cons] at hc
        rcases hc with rfl | hc
        · exact .inr (by decide)
        · exact .inl ((hx.wellFormed.fraction digits hfraction).isDigit c hc)
    · cases hexponent : p.exponent with
      | none =>
        rw [hexponent] at hc
        cases hc
      | some e =>
        obtain ⟨sign, digits⟩ := e
        rw [hexponent, Parts.exponentChars, List.mem_cons, List.mem_cons] at hc
        rcases hc with rfl | rfl | hc
        · exact .inr (by decide)
        · cases sign <;> exact .inr (by decide)
        · exact .inl ((hx.wellFormed.exponent sign digits hexponent).isDigit c hc)
  rw [hx.chars_eq] at hc
  cases negative with
  | false => exact hchars c hc
  | true =>
    rcases List.mem_cons.1 hc with rfl | hc
    · exact .inr (by decide)
    · exact hchars c hc

theorem isVisible_of_isDigit {c : Char} (h : c.isDigit = true) : IsVisible c := by
  rw [Char.isDigit, Bool.and_eq_true, decide_eq_true_eq, decide_eq_true_eq] at h
  have h1 : 48 ≤ c.toNat := h.1
  have h2 : c.toNat ≤ 57 := h.2
  exact ⟨by omega, by omega⟩

/-- Numerals are visible on every layout. -/
theorem isVisible_of_mem_writeNumber {x : Number} (h : AllCanonical [x]) :
    ∀ c ∈ writeNumber x, IsVisible c := by
  intro c hc
  rcases char_of_mem_writeNumber h hc with hdigit | hmem
  · exact isVisible_of_isDigit hdigit
  · have hsigns : ∀ c ∈ ['-', '.', 'e', '+'], IsVisible c := forall_mem_of_all (by decide)
    exact hsigns c hmem

theorem isVisible_word (word : String)
    (h : (word.toList.all fun c => decide (IsVisible c)) = true) :
    ∀ c ∈ word.toList, IsVisible c :=
  forall_mem_of_all h

/-- Whether a layout uses visible characters only. -/
structure Spacing.IsVisible (sp : Spacing) : Prop where
  front : ∀ depth, ∀ c ∈ sp.front depth, Json.IsVisible c
  between : ∀ depth, ∀ c ∈ sp.between depth, Json.IsVisible c
  back : ∀ depth, ∀ c ∈ sp.back depth, Json.IsVisible c

/-- On one line the only space there is is the plain one between items. -/
theorem isVisible_oneLine : oneLine.IsVisible where
  front _ _ h := nomatch h
  between _ := show ∀ c ∈ [' '], Json.IsVisible c from forall_mem_of_all (by decide)
  back _ _ h := nomatch h

section Visible

variable {sp : Spacing} (hsp : sp.IsVisible)
include hsp

mutual

/-- Every character of a value that is laid out visibly is visible. The induction is on the value,
together with its items and its members. -/
theorem isVisible_of_mem_writeAt (depth : Nat) :
    ∀ j : Json, AllCanonical j.numbers → ∀ c ∈ writeAt sp depth j, IsVisible c
  | .null, _ => isVisible_word "null" (by decide)
  | .bool true, _ => isVisible_word "true" (by decide)
  | .bool false, _ => isVisible_word "false" (by decide)
  | .number _, h => isVisible_of_mem_writeNumber h
  | .text _, _ => isVisible_of_mem_writeText
  | .list [], _ => isVisible_word "[]" (by decide)
  | .list (item :: rest), h => by
    have hitem := isVisible_of_mem_writeAt (depth + 1) item h.append.1
    have hrest := isVisible_of_mem_writeItems depth rest h.append.2
    simp only [writeAt, List.cons_append, List.append_assoc, List.forall_mem_cons,
      List.forall_mem_append]
    exact ⟨by decide, hsp.front depth, hitem, hrest, hsp.back depth, by decide, nofun⟩
  | .object [], _ => isVisible_word "\x7b\x7d" (by decide)
  | .object ((key, value) :: rest), h => by
    have hvalue := isVisible_of_mem_writeAt (depth + 1) value h.append.1
    have hrest := isVisible_of_mem_writeMembers depth rest h.append.2
    simp only [writeAt, List.cons_append, List.append_assoc, List.forall_mem_cons,
      List.forall_mem_append]
    exact ⟨by decide, hsp.front depth, isVisible_of_mem_writeText, isVisible_word ": " (by decide),
      hvalue, hrest, hsp.back depth, by decide, nofun⟩

theorem isVisible_of_mem_writeItems (depth : Nat) :
    ∀ items : List Json, AllCanonical (numbersOfItems items) →
      ∀ c ∈ writeItems sp depth items, IsVisible c
  | [], _ => nofun
  | item :: rest, h => by
    have hitem := isVisible_of_mem_writeAt (depth + 1) item h.append.1
    have hrest := isVisible_of_mem_writeItems depth rest h.append.2
    simp only [writeItems, List.cons_append, List.append_assoc, List.forall_mem_cons,
      List.forall_mem_append]
    exact ⟨by decide, hsp.between depth, hitem, hrest⟩

theorem isVisible_of_mem_writeMembers (depth : Nat) :
    ∀ members : List (String × Json), AllCanonical (numbersOfMembers members) →
      ∀ c ∈ writeMembers sp depth members, IsVisible c
  | [], _ => nofun
  | (key, value) :: rest, h => by
    have hvalue := isVisible_of_mem_writeAt (depth + 1) value h.append.1
    have hrest := isVisible_of_mem_writeMembers depth rest h.append.2
    simp only [writeMembers, List.cons_append, List.append_assoc, List.forall_mem_cons,
      List.forall_mem_append]
    exact ⟨by decide, hsp.between depth, isVisible_of_mem_writeText,
      isVisible_word ": " (by decide), hvalue, hrest⟩

end

end Visible

/-! ## Space outside of texts -/

/-- A JSON text without the space that stands outside of its texts; `inside` says that it begins
inside of one, where a backslash takes the next character with it. -/
def unspaced : (inside : Bool) → List Char → List Char
  | _, [] => []
  | true, '\\' :: c :: s => '\\' :: c :: unspaced true s
  | true, c :: s => c :: unspaced (c != '"') s
  | false, c :: s => if IsSpace c then unspaced false s else c :: unspaced (c == '"') s

/-- Within a text all is kept, up to the quote that closes it. -/
theorem unspaced_plain {c : Char} (hquote : c ≠ '"') (hslash : c ≠ '\\') (s : List Char) :
    unspaced true (c :: s) = c :: unspaced true s := by
  rw [unspaced, bne_iff_ne.2 hquote]
  exact fun _ _ heq => absurd heq hslash

/-- An escape is kept as it is: it holds no quote. -/
theorem unspaced_escapeUnit (n : Nat) (s : List Char) :
    unspaced true (escapeUnit n ++ s) = escapeUnit n ++ unspaced true s := by
  have hdigit : ∀ k < 16, hexDigit k ≠ '"' ∧ hexDigit k ≠ '\\' := by decide
  have hplain (digits : List Char) (h : ∀ c ∈ digits, ∃ k, k < 16 ∧ c = hexDigit k) :
      unspaced true (digits ++ s) = digits ++ unspaced true s := by
    induction digits with
    | nil => rfl
    | cons c digits ih =>
      obtain ⟨k, hk, rfl⟩ := h c List.mem_cons_self
      rw [List.cons_append, unspaced_plain (hdigit k hk).1 (hdigit k hk).2,
        ih fun d hd => h d (List.mem_cons_of_mem _ hd), List.cons_append]
  rw [escapeUnit, List.cons_append, List.cons_append, unspaced, hplain _ fun _ => exists_of_mem_hex]
  rfl

/-- Within a text nothing is dropped, an escaped quote included. -/
theorem Spelling.unspaced_append {c : Char} {t : List Char} (h : Spelling c t) (s : List Char) :
    unspaced true (t ++ s) = t ++ unspaced true s := by
  cases h with
  | letter e => rfl
  | plain hquote hslash => exact unspaced_plain hquote hslash s
  | unit => exact unspaced_escapeUnit _ s
  | pair high low =>
    rw [List.append_assoc, unspaced_escapeUnit, unspaced_escapeUnit, List.append_assoc]

/-- A text is kept from its opening quote to its closing one, space included. -/
theorem unspaced_writeText (t : String) (s : List Char) :
    unspaced false (writeText t ++ s) = writeText t ++ unspaced false s := by
  have hinside (u : List Char) : unspaced true (u.flatMap writeChar ++ ('"' :: s))
      = u.flatMap writeChar ++ '"' :: unspaced false s := by
    induction u with
    | nil => rfl
    | cons c u ih =>
      rw [List.flatMap_cons, List.append_assoc, (spelling_writeChar c).unspaced_append, ih,
        List.append_assoc]
  rw [writeText_eq, List.cons_append, List.cons_append, unspaced, if_neg (by decide), textTail,
    List.append_assoc, List.append_assoc]
  exact congrArg _ (hinside t.toList)

/-- Whether two JSON texts differ in the space outside of their texts only. -/
def SameUnspaced (s t : List Char) : Prop := unspaced false s = unspaced false t

namespace SameUnspaced

variable {s t : List Char}

theorem cons (h : SameUnspaced s t) {c : Char} (hc : c ≠ '"') :
    SameUnspaced (c :: s) (c :: t) := by
  rw [SameUnspaced, unspaced, unspaced, beq_false_of_ne hc, h]

/-- The same front without quotes may be put before both. -/
theorem append_left (h : SameUnspaced s t) (front : List Char) (hfront : ∀ c ∈ front, c ≠ '"') :
    SameUnspaced (front ++ s) (front ++ t) := by
  induction front with
  | nil => exact h
  | cons c front ih =>
    exact (ih fun d hd => hfront d (List.mem_cons_of_mem c hd)).cons (hfront c List.mem_cons_self)

theorem append_word (h : SameUnspaced s t) (word : String)
    (hword : (word.toList.all fun c => decide (c ≠ '"')) = true) :
    SameUnspaced (word.toList ++ s) (word.toList ++ t) :=
  h.append_left word.toList (forall_mem_of_all hword)

/-- Different space may be put before both: outside of texts it is dropped. -/
theorem blanks (h : SameUnspaced s t) {front front' : List Char}
    (hfront : ∀ c ∈ front, IsSpace c) (hfront' : ∀ c ∈ front', IsSpace c) :
    SameUnspaced (front ++ s) (front' ++ t) := by
  have hdrop {front : List Char} (s : List Char) (hfront : ∀ c ∈ front, IsSpace c) :
      unspaced false (front ++ s) = unspaced false s := by
    induction front with
    | nil => rfl
    | cons c front ih =>
      rw [List.cons_append, unspaced, if_pos (hfront c List.mem_cons_self),
        ih fun d hd => hfront d (List.mem_cons_of_mem c hd)]
  rw [SameUnspaced, hdrop s hfront, hdrop t hfront', h]

/-- The same text may be put before both, whatever it holds. -/
theorem writeText (h : SameUnspaced s t) (u : String) :
    SameUnspaced (writeText u ++ s) (writeText u ++ t) := by
  rw [SameUnspaced, unspaced_writeText, unspaced_writeText, h]

theorem writeNumber (h : SameUnspaced s t) {x : Number} (hx : AllCanonical [x]) :
    SameUnspaced (writeNumber x ++ s) (writeNumber x ++ t) := by
  refine h.append_left _ fun c hc => ?_
  rintro rfl
  rcases char_of_mem_writeNumber hx hc with hdigit | hmem
  · exact absurd hdigit (by decide)
  · exact absurd hmem (by decide)

end SameUnspaced

section Layouts

variable {sp sp' : Spacing} (hsp : sp.IsBlank) (hsp' : sp'.IsBlank)
include hsp hsp'

mutual

/-- Two layouts of a value differ in the space outside of its texts only. -/
theorem sameUnspaced_writeAt (depth depth' : Nat) :
    ∀ j : Json, AllCanonical j.numbers → ∀ s t, SameUnspaced s t →
      SameUnspaced (writeAt sp depth j ++ s) (writeAt sp' depth' j ++ t)
  | .null, _, _, _, h => h.append_word "null" (by decide)
  | .bool true, _, _, _, h => h.append_word "true" (by decide)
  | .bool false, _, _, _, h => h.append_word "false" (by decide)
  | .number _, hx, _, _, h => h.writeNumber hx
  | .text u, _, _, _, h => h.writeText u
  | .list [], _, _, _, h => h.append_word "[]" (by decide)
  | .list (item :: rest), hx, s, t, h => by
    have hend := ((h.cons (by decide : ']' ≠ '"')).blanks (hsp.back depth) (hsp'.back depth'))
    have hrest := sameUnspaced_writeItems depth depth' rest hx.append.2 _ _ hend
    have hitem := sameUnspaced_writeAt (depth + 1) (depth' + 1) item hx.append.1 _ _ hrest
    simp only [writeAt, List.cons_append, List.append_assoc, List.nil_append]
    exact (hitem.blanks (hsp.front depth) (hsp'.front depth')).cons (by decide)
  | .object [], _, _, _, h => h.append_word "\x7b\x7d" (by decide)
  | .object ((key, value) :: rest), hx, s, t, h => by
    have hend := ((h.cons (by decide : '\x7d' ≠ '"')).blanks (hsp.back depth) (hsp'.back depth'))
    have hrest := sameUnspaced_writeMembers depth depth' rest hx.append.2 _ _ hend
    have hvalue := sameUnspaced_writeAt (depth + 1) (depth' + 1) value hx.append.1 _ _ hrest
    have hkey := (hvalue.append_word ": " (by decide)).writeText key
    simp only [writeAt, List.cons_append, List.append_assoc, List.nil_append]
    exact (hkey.blanks (hsp.front depth) (hsp'.front depth')).cons (by decide)

theorem sameUnspaced_writeItems (depth depth' : Nat) :
    ∀ items : List Json, AllCanonical (numbersOfItems items) → ∀ s t, SameUnspaced s t →
      SameUnspaced (writeItems sp depth items ++ s) (writeItems sp' depth' items ++ t)
  | [], _, _, _, h => h
  | item :: rest, hx, s, t, h => by
    have hrest := sameUnspaced_writeItems depth depth' rest hx.append.2 _ _ h
    have hitem := sameUnspaced_writeAt (depth + 1) (depth' + 1) item hx.append.1 _ _ hrest
    simp only [writeItems, List.cons_append, List.append_assoc]
    exact (hitem.blanks (hsp.between depth) (hsp'.between depth')).cons (by decide)

theorem sameUnspaced_writeMembers (depth depth' : Nat) :
    ∀ members : List (String × Json), AllCanonical (numbersOfMembers members) →
      ∀ s t, SameUnspaced s t →
        SameUnspaced (writeMembers sp depth members ++ s) (writeMembers sp' depth' members ++ t)
  | [], _, _, _, h => h
  | (key, value) :: rest, hx, s, t, h => by
    have hrest := sameUnspaced_writeMembers depth depth' rest hx.append.2 _ _ h
    have hvalue := sameUnspaced_writeAt (depth + 1) (depth' + 1) value hx.append.1 _ _ hrest
    have hkey := (hvalue.append_word ": " (by decide)).writeText key
    simp only [writeMembers, List.cons_append, List.append_assoc]
    exact (hkey.blanks (hsp.between depth) (hsp'.between depth')).cons (by decide)

end

end Layouts

end LicenseDepot.Json
