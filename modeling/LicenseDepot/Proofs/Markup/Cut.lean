import LicenseDepot.Proofs.Markup.Fragment
import LicenseDepot.Proofs.Outcome

/-!
# Rows of fragments that are cut off

A row that is cut off breaks inside one fragment at most. Inside a tag the reader finds no closing
bracket, since the only one in a tag is its last character; inside a run of text it finds shorter
text or a broken reference. Main statement: `scan_of_isPrefix`.
-/

namespace LicenseDepot.Markup

/-! A tag, section or remark is read only up to a closing bracket. -/

theorem eq_of_afterChar? {a : Char} {s rest : List Char} (h : afterChar? a s = some rest) :
    s = a :: rest := by
  cases s with
  | nil => cases h
  | cons c s =>
    rw [afterChar?] at h
    split at h
    · rename_i hc
      rw [hc, Option.some.inj h]
    · cases h

theorem subset_of_splitQuoted? {quote : Char} {s body rest : List Char}
    (h : splitQuoted? quote s = some (body, rest)) : body ⊆ s ∧ rest ⊆ s := by
  unfold splitQuoted? at h
  split at h
  · cases h
  · rename_i hd
    cases h
    refine ⟨List.takeWhile_subset _, fun c hc => List.dropWhile_subset (· != quote) ?_⟩
    rw [hd]
    exact List.mem_cons_of_mem _ hc

theorem subset_of_readQuoted? {s body rest : List Char} (h : readQuoted? s = some (body, rest)) :
    body ⊆ s ∧ rest ⊆ s := by
  cases s with
  | nil => cases h
  | cons q s =>
    rw [readQuoted?] at h
    split at h
    · obtain ⟨hbody, hrest⟩ := subset_of_splitQuoted? h
      exact ⟨List.subset_cons_of_subset q hbody, List.subset_cons_of_subset q hrest⟩
    · cases h

theorem subset_of_readAssignment? [NameLetters] {s rest : List Char} {a : QName × List Char}
    (h : readAssignment? s = some (a, rest)) : a.2 ⊆ s ∧ rest ⊆ s := by
  obtain ⟨⟨name, t⟩, ht, h⟩ := Option.bind_eq_some_iff.1 h
  obtain ⟨u, hu, h⟩ := Option.bind_eq_some_iff.1 h
  obtain ⟨⟨value, v⟩, hv, h⟩ := Option.map_eq_some_iff.1 h
  obtain ⟨_, _, hname⟩ := Option.map_eq_some_iff.1 ht
  cases h
  cases hname
  have hsub : u.dropWhile isSpace ⊆ s := by
    intro c hc
    have hc : c ∈ (s.dropWhile isNamePart).dropWhile isSpace := by
      rw [eq_of_afterChar? hu]
      exact List.mem_cons_of_mem _ (List.dropWhile_subset _ hc)
    exact List.dropWhile_subset _ (List.dropWhile_subset _ hc)
  obtain ⟨hvalue, hrest⟩ := subset_of_readQuoted? hv
  exact ⟨List.Subset.trans hvalue hsub, List.Subset.trans hrest hsub⟩

theorem mem_of_readTagEnd? {s rest : List Char} {e : TagEnd} (h : readTagEnd? s = some (e, rest)) :
    '>' ∈ s := by
  unfold readTagEnd? at h
  split at h
  · exact List.mem_cons_self
  · exact List.mem_cons_of_mem _ List.mem_cons_self
  · cases h

theorem mem_of_readAttributes [NameLetters] {done : List RawAttribute} {s rest : List Char}
    {r : List RawAttribute × TagEnd} (h : readAttributes done s = .ok (r, rest)) : '>' ∈ s := by
  fun_induction readAttributes done s with
  | case1 done s t e rest' he => exact List.dropWhile_subset _ (mem_of_readTagEnd? he)
  | case2 => cases h
  | case3 => cases h
  | case4 done s t _ _ name text rest' ha _ _ a _ ih =>
    exact List.dropWhile_subset _ ((subset_of_readAssignment? ha).2 (ih h))
  | case5 => cases h

theorem mem_of_readStartTag [NameLetters] {s rest : List Char} {t : Token}
    (h : readStartTag s = .ok (t, rest)) : '>' ∈ s := by
  unfold readStartTag at h
  split at h
  · cases h
  · rename_i name s' hn
    have hmem : '>' ∈ s' := by
      split at h
      · cases h
      all_goals
        rename_i ha
        exact mem_of_readAttributes ha
    obtain ⟨_, _, hs'⟩ := Option.map_eq_some_iff.1 hn
    cases hs'
    exact List.dropWhile_subset _ hmem

theorem mem_of_readEndTag [NameLetters] {s rest : List Char} {t : Token}
    (h : readEndTag s = .ok (t, rest)) : '>' ∈ s := by
  unfold readEndTag at h
  simp only at h
  split at h
  · cases h
  · rename_i hr
    have hmem : '>' ∈ (s.dropWhile isNamePart).dropWhile isSpace := by
      rw [eq_of_afterChar? hr]
      exact List.mem_cons_self
    exact List.dropWhile_subset _ (List.dropWhile_subset _ hmem)

theorem mem_of_splitSection? {done s body rest : List Char}
    (h : splitSection? done s = some (body, rest)) : '>' ∈ s := by
  induction s generalizing done with
  | nil => cases h
  | cons c s ih =>
    unfold splitSection? at h
    split at h
    · rename_i hend
      have hmem : '>' ∈ s.take 2 := by simp [hend.2]
      exact List.mem_cons_of_mem c (List.mem_of_mem_take hmem)
    · exact List.mem_cons_of_mem c (ih h)

theorem subset_of_afterPair {a b : Char} {s rest : List Char} (h : afterPair a b s = some rest) :
    b ∈ s ∧ rest ⊆ s := by
  induction s with
  | nil => cases h
  | cons c s ih =>
    unfold afterPair at h
    split at h
    · rename_i hpair
      cases h
      exact ⟨List.mem_cons_of_mem c (List.mem_of_head? hpair.2),
        fun d hd => List.mem_cons_of_mem c (List.mem_of_mem_drop hd)⟩
    · exact ⟨List.mem_cons_of_mem c (ih h).1, fun d hd => List.mem_cons_of_mem c ((ih h).2 hd)⟩

theorem mem_of_afterRemark? [NameLetters] {s rest : List Char} (h : afterRemark? s = some rest) :
    '>' ∈ s := by
  unfold afterRemark? at h
  split at h
  · rename_i s
    obtain ⟨t, ht, hr⟩ := Option.bind_eq_some_iff.1 h
    have hmem : '>' ∈ t := by
      rw [eq_of_afterChar? hr]
      exact List.mem_cons_self
    simp [(subset_of_afterPair ht).2 hmem]
  · rename_i s
    unfold afterInstruction? at h
    simp only at h
    split at h
    · simp [List.dropWhile_subset _ (subset_of_afterPair h).1]
    · cases h
  · cases h

theorem mem_of_afterRemark?_cons [NameLetters] {s rest : List Char}
    (h : afterRemark? ('<' :: s) = some rest) : '>' ∈ s := by
  rcases List.mem_cons.1 (mem_of_afterRemark? h) with heq | hmem
  · exact absurd heq (by decide)
  · exact hmem

/-- What begins like markup is read as a token only if it holds a closing bracket. -/
theorem mem_of_next [NameLetters] {s rest : List Char} {t : Option Token}
    (h : Token.next ('<' :: s) = .ok (t, rest)) : '>' ∈ s := by
  unfold Token.next at h
  split at h
  · rename_i heq
    obtain ⟨⟨t', rest'⟩, hr, -⟩ := map_eq_ok_iff.1 h
    cases heq
    exact List.mem_cons_of_mem _ (mem_of_readEndTag hr)
  · rename_i heq
    cases heq
    split at h
    · cases h
    · rename_i hr
      simp [mem_of_splitSection? hr]
  · split at h
    · cases h
    · rename_i hr
      exact mem_of_afterRemark?_cons hr
  · split at h
    · cases h
    · rename_i hr
      exact mem_of_afterRemark?_cons hr
  · rename_i heq
    obtain ⟨⟨t', rest'⟩, hr, -⟩ := map_eq_ok_iff.1 h
    cases heq
    exact mem_of_readStartTag hr
  · rename_i hno
    exact absurd rfl (hno s)

/-! A row that is cut off. -/

/-- A prefix of a row ends between two fragments or inside one. -/
theorem exists_of_prefix_fragments {fs : List Fragment} {b : List Char}
    (h : b <+: fs.flatMap Fragment.chars) (hne : b ≠ fs.flatMap Fragment.chars) :
    ∃ before f after p, fs = before ++ f :: after ∧ b = before.flatMap Fragment.chars ++ p ∧
      p <+: f.chars ∧ p ≠ f.chars := by
  induction fs generalizing b with
  | nil => exact absurd (List.prefix_nil.1 h) hne
  | cons f fs ih =>
    rw [List.flatMap_cons] at h hne
    by_cases hb : b <+: f.chars ∧ b ≠ f.chars
    · exact ⟨[], f, fs, b, rfl, rfl, hb.1, hb.2⟩
    · have hf : f.chars <+: b := by
        rcases List.prefix_or_prefix_of_prefix h (List.prefix_append f.chars _) with hbf | hfb
        · have heq : b = f.chars := by
            by_contra hbf'
            exact hb ⟨hbf, hbf'⟩
          exact heq ▸ List.prefix_refl f.chars
        · exact hfb
      obtain ⟨c, rfl⟩ := hf
      rw [List.prefix_append_right_inj] at h
      obtain ⟨before, g, after, p, rfl, rfl, hp⟩ := ih h fun heq => hne (by rw [heq])
      exact ⟨f :: before, g, after, p, rfl, by simp, hp⟩

/-- Whether a token is a run of text. -/
def Token.isData : Token → Bool
  | .data _ => true
  | _ => false

theorem not_mem_of_isName {name : Name} (h : isName name = true) : ∀ c ∈ name, c ≠ '>' := by
  rintro c hc rfl
  exact absurd (isNamePart_of_isName h _ hc) (by decide)

theorem not_mem_renderAttribute {attributes : List (ExpandedName × List Char)}
    (h : ∀ a ∈ attributes, isName a.1.base = true) :
    ∀ c ∈ attributes.flatMap renderAttribute, c ≠ '>' := by
  intro c hc
  obtain ⟨a, ha, hc⟩ := List.mem_flatMap.1 hc
  simp only [renderAttribute, List.mem_append, List.mem_cons] at hc
  rcases hc with ((rfl | hc) | rfl | rfl | hc) | rfl | hc
  · decide
  · exact not_mem_of_isName (h a ha) c hc
  · decide
  · decide
  · exact (ne_of_mem_escapeAttribute hc).2.1
  · decide
  · cases hc

/-- The only closing bracket of a tag is its last character. -/
theorem Fragment.exists_chars_eq_concat {f : Fragment} (h : f.IsValid) (hf : f.isText = false) :
    ∃ w, f.chars = '<' :: (w ++ ['>']) ∧ '>' ∉ w := by
  cases f with
  | text s => cases hf
  | opening name attributes =>
    refine ⟨name ++ attributes.flatMap renderAttribute, by simp [chars], fun hmem => ?_⟩
    rcases List.mem_append.1 hmem with hmem | hmem
    · exact not_mem_of_isName h.1 _ hmem rfl
    · exact not_mem_renderAttribute h.2 _ hmem rfl
  | single name attributes =>
    refine ⟨name ++ (attributes.flatMap renderAttribute ++ " /".toList), by simp [chars],
      fun hmem => ?_⟩
    rcases List.mem_append.1 hmem with hmem | hmem
    · exact not_mem_of_isName h.1 _ hmem rfl
    rcases List.mem_append.1 hmem with hmem | hmem
    · exact not_mem_renderAttribute h.2 _ hmem rfl
    · exact absurd hmem (by decide)
  | closing name =>
    refine ⟨'/' :: name, by simp [chars], fun hmem => ?_⟩
    rcases List.mem_cons.1 hmem with heq | hmem
    · exact absurd heq (by decide)
    · exact not_mem_of_isName h _ hmem rfl

/-- Characters without an opening bracket are scanned as one run of text, if at all. -/
theorem exists_data_of_scanFrom {c : Char} {q : List Char} (hplain : ∀ d ∈ c :: q, d ≠ '<')
    {done ts : List Token} (hscan : Token.scanFrom done (c :: q) = .ok ts) :
    ∃ ps, ts = done.reverse ++ [.data ps] := by
  have hhead : (c :: q).head? ≠ some '<' := by
    simpa using hplain c List.mem_cons_self
  have hall : ∀ d ∈ c :: q, (d != '<') = true := by
    intro d hd
    simpa using hplain d hd
  cases hnext : Token.next (c :: q) with
  | error e =>
    rw [scanFrom_error (List.cons_ne_nil _ _) hnext] at hscan
    cases hscan
  | ok r =>
    have hread := hnext
    rw [Fragment.next_of_head?_ne hhead] at hread
    obtain ⟨⟨u, rest⟩, hdata, hr⟩ := map_eq_ok_iff.1 hread
    cases hr
    unfold readData at hdata
    simp only [List.dropWhile_eq_nil_iff.2 hall] at hdata
    split at hdata
    · cases hdata
    · obtain ⟨ps, -, hps⟩ := map_eq_ok_iff.1 hdata
      cases hps
      rw [scanFrom_step (List.cons_ne_nil _ _) hnext, Token.scanFrom, dif_pos rfl] at hscan
      cases hscan
      exact ⟨ps, by simp⟩

/-- A fragment that is cut off is scanned as text, if at all. -/
theorem isData_of_scanFrom_cut {f : Fragment} (h : f.IsValid) {p : List Char} (hp : p <+: f.chars)
    (hne : p ≠ f.chars) {done ts : List Token} (hscan : Token.scanFrom done p = .ok ts) :
    ∃ extra, ts = done.reverse ++ extra ∧ ∀ t ∈ extra, t.isData = true := by
  cases p with
  | nil =>
    rw [Token.scanFrom, dif_pos rfl] at hscan
    cases hscan
    exact ⟨[], by simp, by simp⟩
  | cons c q =>
    by_cases hf : f.isText = true
    · -- Cut text holds no bracket, so it is read to its end.
      obtain ⟨s, rfl⟩ : ∃ s, f = .text s := by
        cases f with
        | text s => exact ⟨s, rfl⟩
        | opening name attributes => cases hf
        | single name attributes => cases hf
        | closing name => cases hf
      obtain ⟨ps, rfl⟩ :=
        exists_data_of_scanFrom (fun d hd => (ne_of_mem_escape (hp.subset hd)).1) hscan
      exact ⟨[.data ps], rfl, by simp [Token.isData]⟩
    · -- A cut tag holds no closing bracket.
      obtain ⟨w, hw, hgt⟩ := Fragment.exists_chars_eq_concat h (by simpa using hf)
      rw [hw] at hp hne
      obtain ⟨rfl, hq⟩ := List.cons_prefix_cons.1 hp
      have hqw : q <+: w := by
        rcases List.prefix_concat_iff.1 hq with heq | hqw
        · exact absurd (by rw [heq]) hne
        · exact hqw
      cases hnext : Token.next ('<' :: q) with
      | error e =>
        rw [scanFrom_error (List.cons_ne_nil _ _) hnext] at hscan
        cases hscan
      | ok r => exact absurd (hqw.subset (mem_of_next hnext)) hgt

/-- A row that is cut off is scanned, if at all, as the tokens of the fragments before the cut and
perhaps a run of text. -/
theorem scan_of_isPrefix {fs : List Fragment} (h : IsRow fs) {b : List Char}
    (hb : b <+: fs.flatMap Fragment.chars) (hne : b ≠ fs.flatMap Fragment.chars)
    {ts : List Token} (hscan : Token.scan b = .ok ts) :
    ∃ before extra, before <+: fs ∧ before ≠ fs ∧ ts = before.map Fragment.token ++ extra ∧
      ∀ t ∈ extra, t.isData = true := by
  obtain ⟨before, f, after, p, rfl, rfl, hp, hpne⟩ := exists_of_prefix_fragments hb hne
  have hrow : IsRow before :=
    ⟨fun g hg => h.valid g (List.mem_append_left _ hg), h.separated.left_of_append⟩
  have hvalid : f.IsValid := h.valid f (by simp)
  -- After a run of text comes a tag, which begins with a bracket even if it is cut off.
  have hafter : (∃ g ∈ before.getLast?, g.isText = true) → ∀ c ∈ p.head?, c = '<' := by
    rintro ⟨g, hg, htext⟩ c hc
    have hf : f.isText = false :=
      (List.isChain_append.1 h.separated).2.2 g hg f rfl htext
    obtain ⟨s, hs⟩ := Fragment.exists_chars_of_not_isText hf
    rw [hs] at hp
    cases p with
    | nil => cases hc
    | cons d p =>
      cases hc
      exact (List.cons_prefix_cons.1 hp).1
  rw [Token.scan, scanFrom_fragments hrow _ hafter] at hscan
  obtain ⟨extra, hts, hextra⟩ := isData_of_scanFrom_cut hvalid hp hpne hscan
  refine ⟨before, extra, List.prefix_append _ _, by simp, ?_, hextra⟩
  rw [hts]
  simp

end LicenseDepot.Markup
