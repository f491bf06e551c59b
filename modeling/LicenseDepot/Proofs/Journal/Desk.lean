import LicenseDepot.Journal.Desk
import LicenseDepot.Proofs.Files.Change

/-!
# Records arrive once

A desk may be set up again and again, and some of the attempts may fail. Whatever came before, the
last attempt that succeeds leaves one handler for the console and one for a file
(`received_greeting`), an attempt that fails leaves the desk as it is, and each record that is taken
after that stands once on the console and once in the file, as far as its level is high enough
(`Received.emit`). No other file is touched. Main statement: `received_once`.
-/

namespace LicenseDepot

open Text

/-! ## Files that are added to -/

namespace Disk

variable {d d' : Disk} {p : Path} {l : Location} {content : Bytes}

/-- Whether a path leads to a file, to be read and to be written alike. -/
def LeadsToFile (d : Disk) (p : Path) (l : Location) (content : Bytes) : Prop :=
  ∀ purpose ≠ .itself, d.locate purpose p = .ok (.found l (.file content))

theorem LeadsToFile.read (h : d.LeadsToFile p l content) : d.read p = .ok content :=
  read_eq_ok_iff.2 ⟨l, h .target Purpose.noConfusion⟩

/-- A text is added to the file that a path leads to. -/
theorem LeadsToFile.exists_append (h : d.LeadsToFile p l content) (text : String) :
    ∃ d', Desk.append d p text = .ok d' ∧
      d'.LeadsToFile p l (content ++ Utf8.encode text.toList) ∧ d.SameExcept d' (· = l) := by
  have hwriting := h .writing Purpose.noConfusion
  have hl : l ≠ [] := by
    rintro rfl
    have hroot := (locate_eq_ok_iff.1 hwriting).2.get?
    rw [FileTree.get?_nil] at hroot
    cases hroot
  obtain ⟨d', hwrite⟩ : ∃ d', d.write p (content ++ Utf8.encode text.toList) = .ok d' := by
    rw [write, hwriting]
    simp only [List.getLast?_eq_some_getLast hl]
    exact ⟨_, rfl⟩
  obtain ⟨s, hs, hleads⟩ := locate_write hwrite
  obtain ⟨s', hs', -, -, -, hsame⟩ := write_changes hwrite
  rw [hwriting] at hs hs'
  cases hs
  cases hs'
  refine ⟨d', ?_, hleads, hsame⟩
  rw [Desk.append, h.read]
  exact hwrite

/-- Whoever adds a text to a file keeps what was in it. -/
theorem exists_of_append {text : String} (h : Desk.append d p text = .ok d') :
    ∃ l old, (d.tree.get? l = some (.file old) ∨ d.tree.get? l = none ∧ old = []) ∧
      d'.LeadsToFile p l (old ++ Utf8.encode text.toList) ∧ d.SameExcept d' (· = l) := by
  have hwritten : ∀ content, d.write p content = .ok d' →
      ∃ s, d.locate .writing p = .ok s ∧ d.locate .target p = .ok s ∧
        (∀ x, d.tree.get? s.location = some x → ∃ old, x = .file old) ∧
        d'.LeadsToFile p s.location content ∧ d.SameExcept d' (· = s.location) := by
    intro content hwrite
    obtain ⟨s, hs, hleads⟩ := locate_write hwrite
    obtain ⟨s', hs', hfile, -, -, hsame⟩ := write_changes hwrite
    obtain rfl : s = s' := Except.ok.inj (hs.symm.trans hs')
    obtain ⟨hcheck, hwalk⟩ := locate_eq_ok_iff.1 hs
    exact ⟨s, hs, locate_eq_ok_iff.2 ⟨hcheck, hwalk.of_writing⟩, hfile, hleads, hsame⟩
  unfold Desk.append at h
  cases hread : d.read p with
  | ok old =>
    rw [hread] at h
    obtain ⟨s, -, htarget, -, hleads, hsame⟩ := hwritten _ h
    obtain ⟨l, hfound⟩ := read_eq_ok_iff.1 hread
    rw [hfound] at htarget
    cases htarget
    exact ⟨l, old, .inl (locate_eq_ok_iff.1 hfound).2.get?, hleads, hsame⟩
  | error e =>
    rw [hread] at h
    obtain ⟨s, hs, htarget, hfile, hleads, hsame⟩ := hwritten _ h
    cases s with
    | vacant parent name =>
      exact ⟨_, [], .inr ⟨(locate_eq_ok_iff.1 hs).2.vacant_get?.2, rfl⟩, hleads, hsame⟩
    | found l n =>
      -- A file that could be written could have been read.
      obtain ⟨old, rfl⟩ := hfile n (locate_eq_ok_iff.1 hs).2.get?
      rw [read_eq_ok_iff.2 ⟨l, htarget⟩] at hread
      cases hread

theorem SameExcept.trans {d'' : Disk} {changed : Location → Prop} (h : d.SameExcept d' changed)
    (h' : d'.SameExcept d'' changed) : d.SameExcept d'' changed :=
  ⟨h'.here.trans h.here, fun m hm => (h'.get? m hm).trans (h.get? m hm)⟩

end Disk

namespace Desk

/-! ## Requests -/

/-- How a desk is to be set up. -/
structure Plan where
  time : String
  place : String
  threshold : Level
  asked : Option String
  environment : Option String

/-- Something that a desk is asked for. -/
inductive Request
  | setUp (plan : Plan)
  | record (e : Entry)

/-- Sets a desk up, unless its file cannot be opened. -/
def setUp (desk : Desk) (plan : Plan) : Except AccessFault Desk :=
  desk.configure plan.time plan.place plan.threshold plan.asked plan.environment

/-- What a desk makes of a request; a plan that fails changes nothing. -/
def handle (desk : Desk) : Request → Desk
  | .setUp plan => (desk.setUp plan).toOption.getD desk
  | .record e => desk.emit e

/-- What a desk makes of one request after another. -/
def handleAll (desk : Desk) (requests : List Request) : Desk :=
  requests.foldl handle desk

/-- The records among some requests. -/
def records (requests : List Request) : List Entry :=
  requests.filterMap fun r =>
    match r with
    | .record e => some e
    | .setUp _ => none

/-- The file that a plan opens. -/
def Plan.file (plan : Plan) : String :=
  chosenFile plan.asked plan.environment

/-- The path of that file. -/
def Plan.path (plan : Plan) (here : Location) : Path :=
  (Path.ofText plan.file).absolute here

/-- The record with which a plan begins. -/
def Plan.greeting (plan : Plan) : Entry :=
  Desk.greeting plan.time plan.place plan.file

theorem handleAll_concat (desk : Desk) (requests : List Request) (r : Request) :
    desk.handleAll (requests ++ [r]) = (desk.handleAll requests).handle r := by
  rw [handleAll, List.foldl_append]
  rfl

theorem handleAll_append (desk : Desk) (before after : List Request) :
    desk.handleAll (before ++ after) = (desk.handleAll before).handleAll after :=
  List.foldl_append

/-! ## What has been received -/

/-- The lines that records leave on a console. -/
def consoleLines (threshold : Level) (entries : List Entry) : List String :=
  (entries.filter fun e =>
    Level.debug.rank ≤ e.level.rank ∧ threshold.rank ≤ e.level.rank).map Entry.consoleLine

/-- The text that records leave in a file. -/
def fileText (entries : List Entry) : List Char :=
  (entries.filter fun e => Level.debug.rank ≤ e.level.rank).flatMap fun e => e.fileLine.toList

/-- How a desk has come out of another one: it passes records to the console and to one file, and
some records have been added to what there was in both, each once and in order. All other files are
as they were. -/
structure Received (first desk : Desk) (threshold : Level) (p : Path) (entries : List Entry) :
    Prop where
  level : desk.threshold = .debug
  handlers : desk.handlers = [⟨threshold, .console⟩, ⟨.debug, .file p⟩]
  console : desk.console = first.console ++ consoleLines threshold entries
  file : ∃ l old,
    (first.disk.tree.get? l = some (.file old) ∨ first.disk.tree.get? l = none ∧ old = []) ∧
    desk.disk.LeadsToFile p l (old ++ Utf8.encode (fileText entries)) ∧
    first.disk.SameExcept desk.disk (· = l)

theorem consoleLines_concat (threshold : Level) (entries : List Entry) (e : Entry) :
    consoleLines threshold (entries ++ [e]) = consoleLines threshold entries
      ++ if Level.debug.rank ≤ e.level.rank ∧ threshold.rank ≤ e.level.rank then [e.consoleLine]
        else [] := by
  rw [consoleLines, List.filter_append, List.map_append, consoleLines]
  by_cases h : Level.debug.rank ≤ e.level.rank ∧ threshold.rank ≤ e.level.rank
  · simp [h]
  · simp [h]

theorem fileText_concat (entries : List Entry) (e : Entry) :
    fileText (entries ++ [e]) = fileText entries
      ++ if Level.debug.rank ≤ e.level.rank then e.fileLine.toList else [] := by
  rw [fileText, List.filter_append, List.flatMap_append, fileText]
  by_cases h : Level.debug.rank ≤ e.level.rank
  · simp [h]
  · simp [h]

variable {first desk : Desk} {threshold : Level} {p : Path} {entries : List Entry}

/-- A record whose level is too low is not passed on. -/
theorem emit_of_low {e : Entry} (h : e.level.rank < desk.threshold.rank) : desk.emit e = desk := by
  rw [emit, if_pos h]

theorem pass_console (desk : Desk) (threshold : Level) (e : Entry) :
    pass e desk ⟨threshold, .console⟩ = { desk with
      console :=
        desk.console ++ if threshold.rank ≤ e.level.rank then [e.consoleLine] else [] } := by
  by_cases h : threshold.rank ≤ e.level.rank
  · simp [pass, h]
  · simp [pass, h, not_le.1 h]

theorem pass_file {e : Entry} (desk : Desk) (p : Path) (h : Level.debug.rank ≤ e.level.rank) :
    pass e desk ⟨.debug, .file p⟩ = { desk with
      disk := (append desk.disk p e.fileLine).toOption.getD desk.disk } :=
  if_neg (not_lt.2 h)

/-- A record whose level is high enough is given to the console and then to the file. -/
theorem emit_of_high {e : Entry} (hlevel : desk.threshold = .debug)
    (hhandlers : desk.handlers = [⟨threshold, .console⟩, ⟨.debug, .file p⟩])
    (h : Level.debug.rank ≤ e.level.rank) :
    desk.emit e = { desk with
      console := desk.console ++ if threshold.rank ≤ e.level.rank then [e.consoleLine] else []
      disk := (append desk.disk p e.fileLine).toOption.getD desk.disk } := by
  have hpasses : desk.handlers.foldl (pass e) desk
      = pass e (pass e desk ⟨threshold, .console⟩) ⟨.debug, .file p⟩ := by
    rw [hhandlers]
    rfl
  rw [emit, if_neg (not_lt.2 (hlevel ▸ h)), hpasses, pass_console, pass_file _ _ h]

/-- A record is passed to the console and to the file, if its level is high enough for each. -/
theorem Received.emit (h : Received first desk threshold p entries) (e : Entry) :
    Received first (desk.emit e) threshold p (entries ++ [e]) := by
  obtain ⟨l, old, hold, hleads, hsame⟩ := h.file
  by_cases hlevel : Level.debug.rank ≤ e.level.rank
  · obtain ⟨d, happend, hleads', hsame'⟩ := hleads.exists_append e.fileLine
    rw [emit_of_high h.level h.handlers hlevel, happend]
    refine ⟨h.level, h.handlers, ?_, l, old, hold, ?_, hsame.trans hsame'⟩
    · show desk.console ++ _ = _
      rw [h.console, consoleLines_concat, List.append_assoc]
      simp only [hlevel, true_and]
    · show d.LeadsToFile p l _
      rw [fileText_concat, if_pos hlevel, Utf8.encode_append, ← List.append_assoc]
      exact hleads'
  · rw [emit_of_low (h.level ▸ not_le.1 hlevel)]
    refine ⟨h.level, h.handlers, ?_, l, old, hold, ?_, hsame⟩
    · rw [consoleLines_concat, if_neg fun hboth => hlevel hboth.1, List.append_nil]
      exact h.console
    · rw [fileText_concat, if_neg hlevel, List.append_nil]
      exact hleads

/-- A desk that has been set up has received the record of that. -/
theorem received_greeting {plan : Plan} (h : first.setUp plan = .ok desk) :
    Received first desk plan.threshold (plan.path first.disk.here) [plan.greeting] := by
  obtain ⟨d, happend, rfl⟩ := map_eq_ok_iff.1 h
  obtain ⟨l, old, hold, hleads, hsame⟩ := Disk.exists_of_append happend
  have hfresh : Received first
      { first with
        disk := d
        threshold := .debug
        handlers := [⟨plan.threshold, .console⟩, ⟨.debug, .file (plan.path first.disk.here)⟩] }
      plan.threshold (plan.path first.disk.here) [] := by
    refine ⟨rfl, rfl, ?_, l, old, hold, ?_, hsame⟩
    · exact (List.append_nil _).symm
    · exact hleads
  exact hfresh.emit plan.greeting

/-! ## Runs -/

/-- The last plan that succeeds among some requests, with those before and after it and with the
desk that it sets up. -/
structure LastSetUp (desk : Desk) (requests before : List Request) (plan : Plan)
    (after : List Request) (ready : Desk) : Prop where
  split : requests = before ++ .setUp plan :: after
  succeeds : (desk.handleAll before).setUp plan = .ok ready
  fails : ∀ earlier plan' later, after = earlier ++ .setUp plan' :: later →
    ∃ e, (ready.handleAll earlier).setUp plan' = .error e

/-- A list that ends with an element and has another one in it, or the same at its end. -/
theorem split_concat {α : Type} {xs earlier later : List α} {x y : α}
    (h : xs ++ [y] = earlier ++ x :: later) :
    (later = [] ∧ xs = earlier ∧ y = x) ∨
      ∃ later', later = later' ++ [y] ∧ xs = earlier ++ x :: later' := by
  rcases List.eq_nil_or_concat later with rfl | ⟨later', z, rfl⟩
  · obtain ⟨hxs, hy⟩ := List.append_inj' h rfl
    exact .inl ⟨rfl, hxs, List.singleton_injective hy⟩
  · rw [List.concat_eq_append, ← List.cons_append, ← List.append_assoc] at h
    obtain ⟨hxs, hy⟩ := List.append_inj' h rfl
    obtain rfl := List.singleton_injective hy
    exact .inr ⟨later', List.concat_eq_append, hxs⟩

variable {requests before after : List Request} {plan : Plan} {ready : Desk}

/-- A plan succeeds exactly if its file can be opened. -/
theorem exists_setUp_iff :
    (∃ ready, desk.setUp plan = .ok ready) ↔
      ∃ d, append desk.disk (plan.path desk.disk.here) "" = .ok d := by
  constructor
  · rintro ⟨ready, h⟩
    obtain ⟨d, happend, -⟩ := map_eq_ok_iff.1 h
    exact ⟨d, happend⟩
  · rintro ⟨d, happend⟩
    exact ⟨_, map_eq_ok_iff.2 ⟨d, happend, rfl⟩⟩

theorem handle_setUp {e : AccessFault} (h : desk.setUp plan = .error e) :
    desk.handle (.setUp plan) = desk := by
  rw [handle, h]
  rfl

theorem LastSetUp.handleAll_eq (h : LastSetUp desk requests before plan after ready) :
    desk.handleAll requests = ready.handleAll after := by
  have hready : (desk.handleAll before).handle (.setUp plan) = ready := by
    rw [handle, h.succeeds]
    rfl
  rw [h.split, handleAll_append, ← hready]
  rfl

/-- A request that sets nothing up leaves the last plan that succeeds the last one. -/
theorem LastSetUp.concat (h : LastSetUp desk requests before plan after ready) {r : Request}
    (hr : ∀ plan', r = .setUp plan' → ∃ e, (desk.handleAll requests).setUp plan' = .error e) :
    LastSetUp desk (requests ++ [r]) before plan (after ++ [r]) ready := by
  refine ⟨?_, h.succeeds, fun earlier plan' later hsplit => ?_⟩
  · rw [h.split, List.append_assoc]
    rfl
  · rcases split_concat hsplit with ⟨-, rfl, hplan⟩ | ⟨later', -, hafter⟩
    · rw [← h.handleAll_eq]
      exact hr plan' hplan
    · exact h.fails earlier plan' later' hafter

/-- Among requests with a plan that succeeds there is a last one. -/
theorem exists_lastSetUp (desk : Desk) (requests : List Request)
    (h : ∃ before plan after ready, requests = before ++ .setUp plan :: after ∧
      (desk.handleAll before).setUp plan = .ok ready) :
    ∃ before plan after ready, LastSetUp desk requests before plan after ready := by
  induction requests using List.reverseRecOn with
  | nil =>
    obtain ⟨before, plan, after, ready, hsplit, -⟩ := h
    simp at hsplit
  | append_singleton requests r ih =>
    obtain ⟨before, plan, after, ready, hsplit, hready⟩ := h
    by_cases hlast : ∃ plan', r = .setUp plan' ∧
        ∃ ready', (desk.handleAll requests).setUp plan' = .ok ready'
    · obtain ⟨plan', rfl, ready', hready'⟩ := hlast
      refine ⟨requests, plan', [], ready', rfl, hready', fun earlier plan'' later hnil => ?_⟩
      simp at hnil
    · rcases split_concat hsplit with ⟨-, rfl, hplan⟩ | ⟨after', -, hrequests⟩
      · exact absurd ⟨plan, hplan, ready, hready⟩ hlast
      · obtain ⟨before', plan', after'', ready', hlast'⟩ :=
          ih ⟨before, plan, after', ready, hrequests, hready⟩
        refine ⟨before', plan', _, ready', hlast'.concat fun other hother => ?_⟩
        cases hfails : (desk.handleAll requests).setUp other with
        | ok ready'' => exact absurd ⟨other, hother, ready'', hfails⟩ hlast
        | error e => exact ⟨e, rfl⟩

/-- Records are received one after another, and plans that fail between them make no difference. -/
theorem Received.handleAll (h : Received first desk threshold p entries)
    (hfails : ∀ earlier plan later, after = earlier ++ .setUp plan :: later →
      ∃ e, (desk.handleAll earlier).setUp plan = .error e) :
    Received first (desk.handleAll after) threshold p (entries ++ records after) := by
  induction after using List.reverseRecOn with
  | nil =>
    rw [show records [] = [] from rfl, List.append_nil]
    exact h
  | append_singleton after r ih =>
    have hreceived := ih fun earlier plan later hsplit => by
      refine hfails earlier plan (later ++ [r]) ?_
      rw [hsplit, List.append_assoc]
      rfl
    have hrecords : records (after ++ [r]) = records after ++ records [r] := List.filterMap_append
    rw [handleAll_concat, hrecords, ← List.append_assoc]
    cases r with
    | record e => exact hreceived.emit e
    | setUp plan =>
      obtain ⟨e, hplan⟩ := hfails after plan [] rfl
      rw [handle_setUp hplan, show records [.setUp plan] = [] from rfl, List.append_nil]
      exact hreceived

/-- Whatever a desk is asked for, if one of the plans succeeds then the last one that does settles
where records go. From then on each record is received once and in order, first the one that greets:
by the console if it is grave enough for the plan, by the file of the plan if it is for debugging at
least, and by no other file. A plan that fails after that leaves everything as it is. -/
theorem received_once (desk : Desk) (requests : List Request)
    (h : ∃ before plan after ready, requests = before ++ .setUp plan :: after ∧
      (desk.handleAll before).setUp plan = .ok ready) :
    ∃ before plan after ready, LastSetUp desk requests before plan after ready ∧
      Received (desk.handleAll before) (desk.handleAll requests) plan.threshold
        (plan.path (desk.handleAll before).disk.here) (plan.greeting :: records after) := by
  obtain ⟨before, plan, after, ready, hlast⟩ := exists_lastSetUp desk requests h
  refine ⟨before, plan, after, ready, hlast, ?_⟩
  rw [hlast.handleAll_eq]
  exact (received_greeting hlast.succeeds).handleAll hlast.fails

/-- A plan that asks for a directory. -/
def blockedPlan : Plan := ⟨"2", "p", .debug, some "/", none⟩

theorem not_exists_setUp_blockedPlan (desk : Desk) :
    ¬ ∃ ready, desk.setUp blockedPlan = .ok ready := by
  have hroot : ∀ purpose, desk.disk.locate purpose ⟨.root, []⟩ = .ok (.found [] .directory) :=
    fun purpose => Disk.locate_eq_ok_iff.2 ⟨by decide, .arrive FileTree.get?_nil⟩
  rw [exists_setUp_iff]
  rintro ⟨d, hd⟩
  change append desk.disk ⟨.root, []⟩ "" = _ at hd
  rw [append, Disk.read, hroot, Disk.write, hroot] at hd
  cases hd

/-- A desk that has not been set up, with one file on its disk. -/
def bareDesk : Desk := ⟨[], .ofFile "other" [], .warning, []⟩

/-- A plan that asks for a file that is not there yet. -/
def openPlan : Plan := ⟨"1", "p", .warning, some "d/../a.log", none⟩

/-- A plan, a second one that fails, and a record after each. -/
def mixedRequests : List Request :=
  [.setUp openPlan, .record ⟨"3", .info, "a", "q", "x"⟩, .setUp blockedPlan,
    .record ⟨"4", .error, "b", "q", "y"⟩]

/-- The plan that fails changes nothing: the graver record stands once on the console, and both
stand in the file. -/
theorem received_once_mixedRequests :
    (∃ before plan after ready, mixedRequests = before ++ .setUp plan :: after ∧
      (bareDesk.handleAll before).setUp plan = .ok ready) ∧
    (bareDesk.handleAll mixedRequests).console = ["4 | ERROR    | b | y\n"] ∧
    ∃ old, (bareDesk.handleAll mixedRequests).disk.read (.child ⟨.root, []⟩ "a.log")
      = .ok (old ++ Utf8.encode (fileText (openPlan.greeting :: records mixedRequests))) := by
  have hpath : openPlan.path [] = .child ⟨.root, []⟩ "a.log" := by decide
  have hadmits : bareDesk.disk.Admits ⟨.root, []⟩ [] "a.log" :=
    ⟨bareDesk.disk.locate_root, by decide, by decide, by decide, by decide⟩
  have hfree : bareDesk.disk.tree.get? ([] ++ ["a.log"]) = none :=
    Disk.get?_ofFile_of_ne (by decide) []
  have happend : append bareDesk.disk (openPlan.path []) "" = .ok
      { bareDesk.disk with tree := bareDesk.disk.tree.put [] "a.log" (.file []) } := by
    rw [hpath, append, Disk.read, hadmits.locate_vacant hfree]
    exact hadmits.write_child (fun x hx => nomatch hfree.symm.trans hx) _
  obtain ⟨ready, hready⟩ := exists_setUp_iff.2 ⟨_, happend⟩
  have hsucceeds : ∃ before plan after ready, mixedRequests = before ++ .setUp plan :: after ∧
      (bareDesk.handleAll before).setUp plan = .ok ready := ⟨[], _, _, ready, rfl, hready⟩
  obtain ⟨before, plan, after, ready', hlast, hreceived⟩ := received_once bareDesk _ hsucceeds
  -- Of the two plans only the first one succeeds.
  have hfirst : before = [] := by
    have hsplit := hlast.split
    rcases before with _ | ⟨_, _ | ⟨_, _ | ⟨_, _ | ⟨_, before⟩⟩⟩⟩
    · rfl
    · cases hsplit
    · cases hsplit
      exact absurd ⟨ready', hlast.succeeds⟩ (not_exists_setUp_blockedPlan _)
    · cases hsplit
    · simp [mixedRequests] at hsplit
  subst hfirst
  cases hlast.split
  obtain ⟨l, old, -, hleads, -⟩ := hreceived.file
  refine ⟨hsucceeds, hreceived.console.trans ?_, old, ?_⟩
  · decide
  · rw [← hpath]
    exact hleads.read

end Desk

end LicenseDepot
