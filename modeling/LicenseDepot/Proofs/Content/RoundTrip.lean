import LicenseDepot.Content
import LicenseDepot.Proofs.LicenseDocument.RoundTrip
import LicenseDepot.Proofs.Text.Utf8

/-!
# Files of plain licences

The file of a plain licence holds the bytes of its document. They are told to be text, decode to the
document, and this is read as a licence that is the same as the one that was written, unless its
expiry date is lost. Main statement: `plain_round_trip`.
-/

namespace LicenseDepot

open Text LicenseDocument

/-! Equality of licences. -/

theorem Licensee.same_refl (l : Licensee) : l.same l = true := by
  have key : ∀ entries : List (String × String), (entries.map Prod.fst).Nodup →
      ∀ e ∈ entries, entries.lookup e.1 = some e.2 := by
    intro entries
    induction entries with
    | nil =>
      intro _ e he
      cases he
    | cons d entries ih =>
      intro hnodup e he
      obtain ⟨name, value⟩ := d
      obtain ⟨hd, hnodup⟩ := List.nodup_cons.1 hnodup
      rcases List.mem_cons.1 he with rfl | he
      · rw [List.lookup_cons, beq_self_eq_true]
      · have hne : (e.1 == name) = false := by
          rw [beq_eq_false_iff_ne]
          intro heq
          exact hd (List.mem_map.2 ⟨e, he, heq⟩)
        rw [List.lookup_cons, hne]
        exact ih hnodup e he
  simp only [same, get?, beq_self_eq_true, Bool.true_and, List.all_eq_true, beq_iff_eq]
  exact key l.entries l.nodup

theorem sameExpiration_refl (e : Option Timestamp) : sameExpiration e e = true := by
  cases e with
  | none => rfl
  | some t => exact Timestamp.same_refl t

theorem Terms.same_refl (t : Terms) : t.same t = true := by
  simp [same, Licensee.same_refl, sameExpiration_refl]

theorem License.same_refl (l : License) : l.same l = true := by
  simp [same, Terms.same_refl]

namespace LicenseDocument

/-- Whether the expiry date of some terms is lost in reading, so that another one is read for it. -/
def LosesExpiration (t : Terms) : Prop :=
  ∃ e ∈ t.expiration, e.IsLost

instance (t : Terms) : Decidable (LosesExpiration t) :=
  decidable_of_iff (t.expiration.any fun e => decide e.IsLost) <| by
    simp [LosesExpiration, Option.any_eq_true]

theorem sameExpiration_termsAsRead_iff (t : Terms) :
    sameExpiration (termsAsRead t).expiration t.expiration = true ↔ ¬ LosesExpiration t := by
  obtain ⟨id, type, licensee, features, expiration, maxUsers⟩ := t
  cases expiration with
  | none => simp [termsAsRead, sameExpiration, LosesExpiration]
  | some e => simp [termsAsRead, sameExpiration, LosesExpiration, Timestamp.same_asRead_iff]

/-- The terms that are read for some terms are the same, unless the expiry date is lost. -/
theorem same_termsAsRead_iff (t : Terms) :
    (termsAsRead t).same t = true ↔ ¬ LosesExpiration t := by
  rw [← sameExpiration_termsAsRead_iff]
  simp [Terms.same, termsAsRead, Licensee.same_refl]

theorem TermsWritable.asRead {t : Terms} (h : TermsWritable t) : TermsWritable (termsAsRead t) :=
  h.withExpiration _

/-- What is read for some terms is written as the terms are, unless an offset was not read back. -/
theorem write_termsAsRead {t : Terms} (h : ∀ e ∈ t.expiration, ¬ e.IsSubSecond) :
    write (termsAsRead t) = write t := by
  have hiso : (termsAsRead t).expiration.map (fun e => leaf "expirationDate" e.iso)
      = t.expiration.map fun e => leaf "expirationDate" e.iso := by
    rw [termsAsRead, Option.map_map]
    apply Option.map_congr
    intro e he
    rw [Function.comp_apply, Timestamp.iso_asRead (h e he)]
  unfold write toElement
  rw [hiso]
  rfl

end LicenseDocument

/-- The licence that is read where a licence has been written. -/
def License.asRead : License → License
  | .plain t => .plain (termsAsRead t)
  | .signed t bytes h => .signed (termsAsRead t) bytes h

@[simp] theorem License.terms_asRead (l : License) : l.asRead.terms = termsAsRead l.terms := by
  cases l with
  | plain t => rfl
  | signed t bytes h => rfl

theorem License.asRead_eq_self_iff {l : License} :
    l.asRead = l ↔ termsAsRead l.terms = l.terms := by
  cases l with
  | plain t => simp [asRead, terms]
  | signed t bytes h => simp [asRead, terms]

/-- The licence that is read for a licence is the same, unless the expiry date is lost. -/
theorem License.same_asRead_iff (l : License) :
    l.asRead.same l = true ↔ ¬ LosesExpiration l.terms := by
  rw [← same_termsAsRead_iff]
  cases l with
  | plain t => simp [License.same, asRead, kind, terms, sealed?]
  | signed t bytes h => simp [License.same, asRead, kind, terms, sealed?]

namespace Content

variable {t : Terms} {s : List Char}

/-- The bytes of a document begin with the mark of documents. -/
theorem exists_encode_write (h : write t = .ok s) :
    ∃ rest, Utf8.encode s = ContentKind.documentMark ++ rest := by
  obtain ⟨-, rfl⟩ := write_eq_ok_iff.1 h
  have hmark : ContentKind.documentMark <+: Utf8.encode declaration := by decide
  obtain ⟨rest, hrest⟩ := hmark
  exact ⟨rest ++ Utf8.encode (termsElement t).render, by
    rw [Utf8.encode_append, ← hrest, List.append_assoc]⟩

theorem sniff_encode_write (h : write t = .ok s) :
    ContentKind.sniff (Utf8.encode s) = .text := by
  obtain ⟨rest, hrest⟩ := exists_encode_write h
  rw [ContentKind.sniff, hrest, if_pos]
  rw [List.isPrefixOf_iff_prefix]
  exact List.prefix_append _ _

theorem ofBytes_encode_write (h : write t = .ok s) : ofBytes (Utf8.encode s) = .ok (.text s) := by
  rw [ofBytes, sniff_encode_write h, Utf8.decode_encode]
  rfl

/-- A written document is read as the terms that were written. -/
theorem readTerms_write (h : write t = .ok s) : readTerms s = .ok (termsAsRead t) := by
  obtain ⟨hwritable, rfl⟩ := write_eq_ok_iff.1 h
  rw [readTerms, Markup.read_render (isWritable_termsElement hwritable)]
  simp only [ofElement_termsElement hwritable]
  rfl

theorem toLicense_write (h : write t = .ok s) :
    toLicense (.text s) = .ok (.plain (termsAsRead t)) := by
  rw [toLicense, readTerms_write h]
  rfl

/-- The file of a plain licence is read back as that licence. Only the expiry date may be another
one, and it is exactly where it is lost: where its offset is below a second and not zero, or depends
on its fold. The date and the time that it shows are always read back, and so is its offset, but for
universal time in the place of one below a second; and unless the offset is such a one, what has
been read is written as the same text. -/
theorem plain_round_trip (h : (License.plain t).document = .ok s) :
    ContentKind.sniff (Utf8.encode s) = .text ∧ ofBytes (Utf8.encode s) = .ok (.text s) ∧
    ∃ u : Terms, toLicense (.text s) = .ok (.plain u) ∧
      u.id = t.id ∧ u.type = t.type ∧ u.licensee.entries = t.licensee.entries ∧
      u.features = t.features ∧ u.maxUsers = t.maxUsers ∧
      (sameExpiration u.expiration t.expiration = true ↔
        ∀ e ∈ t.expiration, ¬ e.IsSubSecond ∧ e.isTwofold = false) ∧
      ((License.plain u).same (.plain t) = true ↔
        ∀ e ∈ t.expiration, ¬ e.IsSubSecond ∧ e.isTwofold = false) ∧
      (t.expiration = none → u.expiration = none) ∧
      (∀ e ∈ t.expiration, ∃ e' ∈ u.expiration, e'.date = e.date ∧ e'.clock = e.clock ∧
        e'.offset = if e.IsSubSecond then some .utc else e.offset) ∧
      ((∀ e ∈ t.expiration, ¬ e.IsSubSecond) → (License.plain u).document = .ok s) := by
  have hlost : (∀ e ∈ t.expiration, ¬ e.IsSubSecond ∧ e.isTwofold = false)
      ↔ ¬ LosesExpiration t := by
    simp [LosesExpiration, Timestamp.IsLost]
  refine ⟨sniff_encode_write h, ofBytes_encode_write h, termsAsRead t, toLicense_write h, rfl, rfl,
    rfl, rfl, rfl, ?_, ?_, ?_, ?_, ?_⟩
  · rw [hlost]
    exact sameExpiration_termsAsRead_iff t
  · rw [hlost]
    exact License.same_asRead_iff (.plain t)
  · intro hnone
    rw [termsAsRead, hnone, Option.map_none]
  · intro e he
    refine ⟨e.asRead, Option.mem_map_of_mem _ he, rfl, rfl, ?_⟩
    split
    · rename_i hsub
      exact Timestamp.offset_asRead_of_isSubSecond hsub
    · rename_i hsub
      exact Timestamp.offset_asRead_of_not_isSubSecond hsub
  · intro hkept
    exact (write_termsAsRead hkept).trans h

/-- Terms with texts that have to be escaped and an offset of half a second. -/
def awkwardTerms : Terms where
  id := ⟨0x0123456789abcdef0123456789abcdef⟩
  type := .paid
  licensee := ⟨[("a\"<", "x\ty\n&]]>"), ("", "")], by decide⟩
  features := ["", "  ", "ñ🦊"]
  expiration := some ⟨⟨2024, 2, 29, by decide, by decide, by decide⟩,
    ⟨23, 59, 59, 7, by decide, by decide, by decide, by decide⟩,
    some (.fixed ⟨-500000, by decide⟩), false⟩
  maxUsers := some (-3)

theorem termsWritable_awkwardTerms : TermsWritable awkwardTerms where
  name := by
    have hall :
        (awkwardTerms.licensee.entries.all fun e => e.1.toList.all isAttributeChar) = true := by
      decide
    simpa only [List.all_eq_true] using hall
  value := by
    have hall : (awkwardTerms.licensee.entries.all fun e => e.2.toList.all isTextChar) = true := by
      decide
    simpa only [List.all_eq_true] using hall
  feature := by
    have hall : (awkwardTerms.features.all fun f => f.toList.all isTextChar) = true := by
      decide
    simpa only [List.all_eq_true] using hall
  maxUsers := by decide

theorem document_awkwardTerms : ∃ s, (License.plain awkwardTerms).document = .ok s :=
  ⟨_, write_eq_ok_iff.2 ⟨termsWritable_awkwardTerms, rfl⟩⟩

theorem plain_round_trip_awkwardTerms :
    ∃ s u, (License.plain awkwardTerms).document = .ok s ∧
      ofBytes (Utf8.encode s) = .ok (.text s) ∧ toLicense (.text s) = .ok (.plain u) ∧
      u.licensee.entries = [("a\"<", "x\ty\n&]]>"), ("", "")] ∧ u.features = ["", "  ", "ñ🦊"] ∧
      sameExpiration u.expiration awkwardTerms.expiration = false := by
  obtain ⟨s, hs⟩ := document_awkwardTerms
  obtain ⟨-, hbytes, u, hread, -, -, hlicensee, hfeatures, -, hexpiration, -⟩ := plain_round_trip hs
  refine ⟨s, u, hs, hbytes, hread, hlicensee, hfeatures, ?_⟩
  rw [Bool.eq_false_iff]
  intro hsame
  exact (hexpiration.1 hsame _ rfl).1 (by decide)

/-- A time by the clocks of Madrid between two and three, on the day on which they are set back from
three to two: it comes twice, and the first one is meant. -/
def repeatedTime : Timestamp where
  date := ⟨2025, 10, 26, by decide, by decide, by decide⟩
  clock := ⟨2, 30, 59, 7, by decide, by decide, by decide, by decide⟩
  zone := some (.ruled
    { number := 0
      shown := "zoneinfo.ZoneInfo(key='Europe/Madrid')"
      first := some ⟨7200000000, by decide⟩
      second := some ⟨3600000000, by decide⟩ })

/-- Terms that expire at a time that comes twice. -/
def repeatedTerms : Terms :=
  { awkwardTerms with expiration := some repeatedTime }

theorem document_repeatedTerms : ∃ s, (License.plain repeatedTerms).document = .ok s :=
  ⟨_, write_eq_ok_iff.2 ⟨termsWritable_awkwardTerms.withExpiration _, rfl⟩⟩

/-- A plain licence that expires at such a time is not the same when it has been read back, though
its offset is two hours. -/
theorem plain_not_same_repeatedTerms :
    ∃ s u, (License.plain repeatedTerms).document = .ok s ∧
      toLicense (.text s) = .ok (.plain u) ∧ (∀ e ∈ repeatedTerms.expiration, ¬ e.IsSubSecond) ∧
      sameExpiration u.expiration repeatedTerms.expiration = false ∧
      (License.plain u).same (.plain repeatedTerms) = false := by
  obtain ⟨s, hs⟩ := document_repeatedTerms
  have hlost : LosesExpiration repeatedTerms := by decide
  refine ⟨s, _, hs, toLicense_write hs, by decide, ?_, ?_⟩
  · rw [Bool.eq_false_iff]
    exact fun hsame => (sameExpiration_termsAsRead_iff _).1 hsame hlost
  · rw [Bool.eq_false_iff]
    exact fun hsame => (License.same_asRead_iff (.plain repeatedTerms)).1 hsame hlost

end Content

end LicenseDepot
