import LicenseDepot.Proofs.LicenseDocument.Refusal
import LicenseDepot.Proofs.Store.Writing

/-!
# Licences that cannot be stored

A plain licence is stored as its document, so one that cannot be written is not stored, and no file
changes. A signed licence is stored as its sealed bytes, and what its terms hold does not matter.
Main statement: `refused_exactly`.
-/

namespace LicenseDepot

/-- Whether a file can be written at a path, whatever is to be in it. -/
def Disk.IsWritable (d : Disk) (p : Path) : Prop :=
  ∃ content d', d.write p content = .ok d'

/-- What is to be in a file does not matter to whether it can be written. -/
theorem Disk.IsWritable.exists_write {d : Disk} {p : Path} (h : d.IsWritable p) (content : Bytes) :
    ∃ d', d.write p content = .ok d' := by
  obtain ⟨other, d', hwrite⟩ := h
  unfold Disk.write at hwrite ⊢
  split at hwrite
  · cases hwrite
  · split at hwrite
    · exact ⟨_, rfl⟩
    · cases hwrite
  · cases hwrite
  · cases hwrite
  · exact ⟨_, rfl⟩

namespace Store

open Machine LicenseDocument Numeral

variable {r : Reference} {t : Terms} {p : Path} {w : Machine}

/-- A plain licence with a character that its document cannot hold is not stored. -/
theorem store_of_unrepresentable {field : Field} {c : Char} (hp : fileFor r (.plain t) = .ok p)
    (h : write t = .error (.unrepresentable field c)) (d : Disk) :
    d.store r (.plain t) = .error (.unserializable t.id p (.unrepresentable field c)) := by
  have hbytes : bytesFor (.plain t) p
      = .error (.unserializable t.id p (.unrepresentable field c)) := by
    rw [bytesFor, License.fileBytes, h]
    rfl
  unfold Disk.store
  simp only [hp, hbytes]

/-- A signed licence is stored at any path that can be written. -/
theorem exists_store_signed {bytes : Bytes} {h : bytes ≠ []}
    (hp : fileFor r (.signed t bytes h) = .ok p) (hwritable : w.disk.IsWritable p) :
    ∃ w', run (store (m := StateM Machine) r (.signed t bytes h)) w = (.ok (), w') ∧
      w.disk.write p bytes = .ok w'.disk ∧ w'.disk.read p = .ok bytes := by
  obtain ⟨d', hwrite⟩ := hwritable.exists_write bytes
  have hstore := store_eq_ok_iff.2 ⟨p, bytes, hp, rfl, hwrite⟩
  obtain ⟨hresult, hdisk⟩ := run_store r (.signed t bytes h) w
  rw [hstore] at hresult hdisk
  refine ⟨_, Prod.ext hresult rfl, ?_⟩
  rw [hdisk]
  exact ⟨hwrite, Disk.read_write hwrite⟩

/-- Terms whose number of users has a numeral within the limit are refused exactly if one of their
characters cannot be held by its field, and are written in every other case. The report names the
first such character in the order of writing, with its field. Storing the plain licence of such
terms in a file fails and leaves all files as they are; the signed licence of the same terms is
stored as its sealed bytes wherever a file can be written. The characters of terms are those of
Unicode; halves of surrogate pairs, for which a program could be refused in the same way, are no
characters here. -/
theorem refused_exactly (l : License)
    (hmaxUsers : ∀ n ∈ l.terms.maxUsers, (Nat.toDigits 10 n.natAbs).length ≤ 4300) :
    ((∃ fault, l.document = .error fault ∧ fault.typeName = "LicenseEncodeError") ↔
      HoldsUnfit l.terms) ∧
    (¬ HoldsUnfit l.terms → ∃ s, l.document = .ok s) ∧
    (∀ fault, l.document = .error fault →
      ∃ field c, IsFirstUnfit l.terms field c ∧ Names fault.message field c) ∧
    ∀ (path : Path) (multi : Bool) (w : Machine),
      (HoldsUnfit l.terms → ∃ e w',
        run (store (m := StateM Machine) (.file path multi) (.plain l.terms)) w = (.error e, w') ∧
        e.typeName = "IOFailure" ∧ e.cause? = some "LicenseEncodeError" ∧ w'.disk = w.disk) ∧
      ∀ (bytes : Bytes) (h : bytes ≠ []) (p : Path),
        fileFor (.file path multi) (.signed l.terms bytes h) = .ok p → w.disk.IsWritable p →
        ∃ w', run (store (m := StateM Machine) (.file path multi) (.signed l.terms bytes h)) w
            = (.ok (), w') ∧
          w.disk.write p bytes = .ok w'.disk ∧ w'.disk.read p = .ok bytes := by
  have hlimit : ∀ n ∈ l.terms.maxUsers, Integer.isWritable n = true :=
    fun n hn => decide_eq_true (hmaxUsers n hn)
  have hunfit : HoldsUnfit l.terms → ∃ field c, IsFirstUnfit l.terms field c ∧
      write l.terms = .error (.unrepresentable field c) := by
    intro hunfit
    cases hwrite : write l.terms with
    | ok s => exact absurd hunfit ((exists_write_iff hlimit).1 ⟨s, hwrite⟩)
    | error fault =>
      obtain ⟨field, c, hfirst, rfl⟩ := (write_eq_error_iff hlimit).1 hwrite
      exact ⟨field, c, hfirst, rfl⟩
  refine ⟨⟨?_, ?_⟩, (exists_write_iff hlimit).2, ?_, fun path multi w => ⟨?_, ?_⟩⟩
  · rintro ⟨fault, hwrite, -⟩
    by_contra hfit
    obtain ⟨s, hs⟩ := (exists_write_iff hlimit).2 hfit
    cases hwrite.symm.trans hs
  · intro h
    obtain ⟨field, c, -, hwrite⟩ := hunfit h
    exact ⟨_, hwrite, rfl⟩
  · intro fault hwrite
    obtain ⟨field, c, hfirst, rfl⟩ := (write_eq_error_iff hlimit).1 hwrite
    exact ⟨field, c, hfirst, names_message field c⟩
  · intro h
    obtain ⟨field, c, -, hwrite⟩ := hunfit h
    obtain ⟨p, hp⟩ : ∃ p, fileFor (.file path multi) (.plain l.terms) = .ok p := by
      cases multi <;> exact ⟨_, rfl⟩
    obtain ⟨hresult, hdisk⟩ := run_store (.file path multi) (.plain l.terms) w
    rw [store_of_unrepresentable hp hwrite] at hresult hdisk
    exact ⟨_, _, Prod.ext hresult rfl, rfl, rfl, hdisk⟩
  · intro bytes h p hp hwritable
    exact exists_store_signed hp hwritable

/-- Terms with several characters that cannot be written. -/
def spoiledTerms : Terms where
  id := ⟨0x0123456789abcdef0123456789abcdef⟩
  licensee := ⟨[("a", "x\x01"), ("b\n", "\r")], by decide⟩
  features := ["\x00"]
  maxUsers := some (-7)

/-- A machine with a file that is no licence file. -/
def strangersMachine : Machine :=
  ⟨.ofFile "other" [], [], {}⟩

theorem isWritable_strangersMachine :
    strangersMachine.disk.IsWritable (.child ⟨.root, []⟩ spoiledTerms.id.fileName) := by
  have hfree := Disk.get?_ofFile_of_ne (show spoiledTerms.id.fileName ≠ "other" by decide) []
  have hadmits := Disk.admits_fileName (Disk.locate_root strangersMachine.disk)
    Path.hasRoom_root spoiledTerms.id
  exact ⟨[], _, hadmits.write_child (fun x hx => nomatch hfree.symm.trans hx) []⟩

/-- The terms are refused for the character that is written first. -/
theorem refused_exactly_spoiledTerms :
    (∀ n ∈ spoiledTerms.maxUsers, (Nat.toDigits 10 n.natAbs).length ≤ 4300) ∧
    HoldsUnfit spoiledTerms ∧
    IsFirstUnfit spoiledTerms (.entryValue "a") '\x01' ∧
    strangersMachine.disk.IsWritable (.child ⟨.root, []⟩ spoiledTerms.id.fileName) ∧
    (∃ e w, run (store (m := StateM Machine) (.file ⟨.root, []⟩ true) (.plain spoiledTerms))
        strangersMachine = (.error e, w) ∧ e.cause? = some "LicenseEncodeError" ∧
      w.disk = strangersMachine.disk) ∧
    ∃ w, run (store (m := StateM Machine) (.file ⟨.root, []⟩ true)
        (.signed spoiledTerms [0] (by decide))) strangersMachine = (.ok (), w) ∧
      w.disk.read (.child ⟨.root, []⟩ spoiledTerms.id.fileName) = .ok [0] := by
  have hmaxUsers : ∀ n ∈ spoiledTerms.maxUsers, (Nat.toDigits 10 n.natAbs).length ≤ 4300 := by
    intro n hn
    cases hn
    decide
  have hunfit : ¬ (Field.entryValue "a").Takes '\x01' := by
    rw [← Field.holds_iff_takes]
    decide
  have hholds : HoldsUnfit spoiledTerms :=
    .inr (.inl ⟨("a", "x\x01"), by simp [spoiledTerms], '\x01', by decide, hunfit⟩)
  have hfirst : IsFirstUnfit spoiledTerms (.entryValue "a") '\x01' := by
    refine ⟨[(.entryName, 'a'), (.entryValue "a", 'x')], _, rfl, ?_, hunfit⟩
    simp only [← Field.holds_iff_takes]
    decide
  obtain ⟨-, -, -, hstore⟩ := refused_exactly (.plain spoiledTerms) hmaxUsers
  obtain ⟨hplain, hsigned⟩ := hstore ⟨.root, []⟩ true strangersMachine
  obtain ⟨e, v, hrun, -, hcause, hdisk⟩ := hplain hholds
  obtain ⟨v', hrun', -, hread⟩ := hsigned [0] (by decide) _ rfl isWritable_strangersMachine
  exact ⟨hmaxUsers, hholds, hfirst, isWritable_strangersMachine, ⟨e, v, hrun, hcause, hdisk⟩, v',
    hrun', hread⟩

end Store

end LicenseDepot
