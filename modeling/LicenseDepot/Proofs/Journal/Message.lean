import LicenseDepot.Journal.Payload
import LicenseDepot.Proofs.Json.Layout

/-!
# The message of an event cannot forge a line

Names, identifiers and paths go into an event as they are, line ends included, and operators choose
them. In the message of the event they are escaped: it is one line of visible characters, and
reading it gives back all that went in, whatever that was. Main statement: `message_recovers`.
-/

namespace LicenseDepot

open Json (AllCanonical)
open Numeral

/-! ## Members with keys of their own -/

theorem Json.put_of_notMem {key : String} {members : List (String × Json)}
    (h : key ∉ members.map Prod.fst) (value : Json) :
    Json.put key value members = members ++ [(key, value)] := by
  induction members with
  | nil => rfl
  | cons m members ih =>
    rw [List.map_cons, List.mem_cons, not_or] at h
    rw [Json.put, if_neg (Ne.symm h.1), ih h.2, List.cons_append]

/-- Members with different keys are all kept, in their order. -/
theorem Json.ofMembers_eq_object {members : List (String × Json)}
    (h : (members.map Prod.fst).Nodup) : Json.ofMembers members = .object members := by
  have hfold (members : List (String × Json)) : ∀ before : List (String × Json),
      ((before ++ members).map Prod.fst).Nodup →
      members.foldl (fun ms m => Json.put m.1 m.2 ms) before = before ++ members := by
    induction members with
    | nil =>
      intro before _
      exact (List.append_nil before).symm
    | cons m members ih =>
      intro before hnodup
      have hfresh : m.1 ∉ before.map Prod.fst := by
        intro hm
        rw [List.map_append, List.nodup_append] at hnodup
        exact hnodup.2.2 _ hm _ (List.mem_map_of_mem List.mem_cons_self) rfl
      rw [List.foldl_cons, Json.put_of_notMem hfresh, ih]
      · rw [List.append_assoc, List.singleton_append]
      · rwa [List.append_assoc, List.singleton_append]
  rw [Json.ofMembers, hfold members [] h, List.nil_append]

/-! ## Numbers of a payload -/

theorem Subject.numbers_toJson (s : Subject) : ∀ x ∈ s.toJson.numbers, x ∈ s.numbers := by
  cases s with
  | other j => exact fun _ hx => hx
  | _ => nofun

namespace Datum

mutual

/-- The JSON value of some data has no numbers but those the data are written with. -/
theorem numbers_toJson : ∀ d : Datum, ∀ x ∈ d.toJson.numbers, x ∈ d.numbers
  | .subject s => s.numbers_toJson
  | .shown _ => nofun
  | .list items => numbers_itemsToJson items
  | .object members => numbers_membersToJson members

theorem numbers_itemsToJson :
    ∀ items : List Datum, ∀ x ∈ Json.numbersOfItems (itemsToJson items), x ∈ numbersOfItems items
  | [] => nofun
  | item :: rest => fun x hx =>
    List.mem_append.2 ((List.mem_append.1 hx).imp (numbers_toJson item x)
      (numbers_itemsToJson rest x))

theorem numbers_membersToJson :
    ∀ members : List (String × Datum), ∀ x ∈ Json.numbersOfMembers (membersToJson members),
      x ∈ numbersOfMembers members
  | [] => nofun
  | (_, value) :: rest => fun x hx =>
    List.mem_append.2 ((List.mem_append.1 hx).imp (numbers_toJson value x)
      (numbers_membersToJson rest x))

end

theorem keys_membersToJson (members : List (String × Datum)) :
    (membersToJson members).map Prod.fst = members.map Prod.fst := by
  induction members with
  | nil => rfl
  | cons m members ih => rw [membersToJson, List.map_cons, List.map_cons, ih]

end Datum

namespace RawEvent

variable {e : RawEvent}

/-- The object that the message of an event shows. -/
def entry (e : RawEvent) : Json :=
  .object [("timestamp", .number e.time), ("level", .text e.level), ("event", .text e.name),
    ("correlation_id", .text e.correlation), ("data", .object (Datum.membersToJson e.payload))]

theorem toJson_event (hkeys : (e.payload.map Prod.fst).Nodup) : e.event.toJson = e.entry := by
  rw [Event.toJson, event, Json.ofMembers_eq_object (by rwa [Datum.keys_membersToJson]), entry]

theorem allCanonical_entry (h : AllCanonical e.numbers) : AllCanonical e.entry.numbers := by
  intro x hx
  have hnumbers : e.entry.numbers
      = e.time :: (Json.numbersOfMembers (Datum.membersToJson e.payload) ++ []) := rfl
  rw [hnumbers, List.append_nil, List.mem_cons] at hx
  exact h x (List.mem_cons.2 (hx.imp_right (Datum.numbers_membersToJson e.payload _)))

theorem all_isWritable_iff {xs : List Number} :
    xs.all Json.isWritable = true ↔ ∀ n, .integer n ∈ xs → Integer.isWritable n = true := by
  rw [List.all_eq_true]
  constructor
  · intro h n hn
    exact h (.integer n) hn
  · intro h x hx
    cases x with
    | integer n => exact h n hx
    | decimal x => rfl

theorem message?_eq (tall : Bool) (hkeys : (e.payload.map Prod.fst).Nodup) :
    e.message? tall = if e.numbers.all Json.isWritable then
      some (if tall then e.entry.pretty else e.entry.compact) else none := by
  rw [message?, Event.message, toJson_event hkeys]

/-- The message of an event is one line of visible characters, from which all of the event is read
back; a character past the sixteenth bit is in it as two escaped units. The tall layout has the same
message with other space outside of its texts. There is a message unless an integer is too long to
be written. -/
theorem message_recovers (e : RawEvent) (hkeys : (e.payload.map Prod.fst).Nodup)
    (hfinite : AllCanonical e.numbers) :
    ((∃ compact, e.message? false = some compact) ↔
      ∀ n, .integer n ∈ e.numbers → Integer.isWritable n = true) ∧
    (∀ compact, e.message? false = some compact →
      (∀ c ∈ compact.toList, 0x20 ≤ c.toNat ∧ c.toNat ≤ 0x7E) ∧
      Json.read? compact.toList = some (.object
        [("timestamp", .number e.time), ("level", .text e.level), ("event", .text e.name),
          ("correlation_id", .text e.correlation),
          ("data", .object (Datum.membersToJson e.payload))]) ∧
      ∃ tall, e.message? true = some tall ∧
        Json.unspaced false tall.toList = Json.unspaced false compact.toList) ∧
    ∀ c : Char, 0x10000 ≤ c.toNat →
      ∃ high low, (0xD800 ≤ high ∧ high < 0xDC00) ∧ (0xDC00 ≤ low ∧ low < 0xE000) ∧
        c.toNat = 0x10000 + (high - 0xD800) * 0x400 + (low - 0xDC00) ∧
        Json.writeChar c = Json.escapeUnit high ++ Json.escapeUnit low := by
  have hentry := allCanonical_entry hfinite
  refine ⟨?_, ?_, fun c hc => (Json.spelling_writeChar c).exists_pair hc⟩
  · rw [message?_eq false hkeys, ← all_isWritable_iff]
    split
    · next hall => exact ⟨fun _ => hall, fun _ => ⟨_, rfl⟩⟩
    · next hall => exact ⟨nofun, fun h => absurd h hall⟩
  · intro compact hcompact
    rw [message?_eq false hkeys] at hcompact
    split at hcompact
    · next hall =>
      cases hcompact
      refine ⟨?_, ?_, e.entry.pretty, ?_, ?_⟩
      · rw [if_neg Bool.false_ne_true, Json.compact, String.toList_ofList]
        exact Json.isVisible_of_mem_writeAt Json.isVisible_oneLine 0 e.entry hentry
      · rw [if_neg Bool.false_ne_true, Json.compact, String.toList_ofList]
        exact Json.read?_writeAt Json.isBlank_oneLine hentry 0
      · rw [message?_eq true hkeys, if_pos hall, if_pos rfl]
      · rw [if_neg Bool.false_ne_true, Json.compact, Json.pretty, String.toList_ofList,
          String.toList_ofList]
        have hsame := Json.sameUnspaced_writeAt Json.isBlank_tall Json.isBlank_oneLine 0 0 e.entry
          hentry [] [] rfl
        rwa [List.append_nil, List.append_nil] at hsame
    · cases hcompact

/-- An event that tries to begin a new line in every part: there are line ends, quotes and a
character past the sixteenth bit in its texts and keys, and its payload nests a path, numbers and a
value of another kind. -/
def hostileEvent : RawEvent where
  name := "store\n\x7b\"level\": \"INFO\"\x7d"
  correlation := "\u2028"
  level := "ERROR\r"
  time := .decimal ⟨false, 2 ^ 52, -52⟩
  payload :=
    [("a\nb", .subject (.path ⟨.root, ["c\nd", "😀"]⟩)),
      ("\"", .list [.shown "<x\\y>", .subject (.other (.number (.integer (-7))))]),
      ("e", .object [("\x7f", .subject (.other (.number (.decimal ⟨true, 0, -1074⟩))))])]

theorem numbers_hostileEvent : hostileEvent.numbers =
    [.decimal ⟨false, 2 ^ 52, -52⟩, .integer (-7), .decimal ⟨true, 0, -1074⟩] := rfl

theorem message_recovers_hostileEvent :
    (hostileEvent.payload.map Prod.fst).Nodup ∧ AllCanonical hostileEvent.numbers ∧
    ∃ compact, hostileEvent.message? false = some compact ∧
      (∀ c ∈ compact.toList, 0x20 ≤ c.toNat ∧ c.toNat ≤ 0x7E) ∧
      Json.read? compact.toList = some (.object
        [("timestamp", .number (.decimal ⟨false, 2 ^ 52, -52⟩)), ("level", .text "ERROR\r"),
          ("event", .text "store\n\x7b\"level\": \"INFO\"\x7d"), ("correlation_id", .text "\u2028"),
          ("data", .object
            [("a\nb", .text (Path.toText ⟨.root, ["c\nd", "😀"]⟩)),
              ("\"", .list [.text "<x\\y>", .number (.integer (-7))]),
              ("e", .object [("\x7f", .number (.decimal ⟨true, 0, -1074⟩))])])]) ∧
      ∃ tall, hostileEvent.message? true = some tall ∧
        Json.unspaced false tall.toList = Json.unspaced false compact.toList := by
  have hkeys : (hostileEvent.payload.map Prod.fst).Nodup := by decide
  have hfinite : AllCanonical hostileEvent.numbers := by
    rw [numbers_hostileEvent]
    intro x hx
    simp only [List.mem_cons, List.not_mem_nil, reduceCtorEq, Number.decimal.injEq, or_false,
      false_or] at hx
    rcases hx with rfl | rfl <;> decide
  have hwritable : ∀ n, .integer n ∈ hostileEvent.numbers → Integer.isWritable n = true := by
    rw [numbers_hostileEvent]
    intro n hn
    simp only [List.mem_cons, List.not_mem_nil, reduceCtorEq, Number.integer.injEq, or_false,
      false_or] at hn
    rw [hn]
    decide
  obtain ⟨compact, hcompact⟩ := (message_recovers hostileEvent hkeys hfinite).1.2 hwritable
  exact ⟨hkeys, hfinite, compact, hcompact,
    (message_recovers hostileEvent hkeys hfinite).2.1 compact hcompact⟩

end RawEvent

end LicenseDepot
