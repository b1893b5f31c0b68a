import LiveQuery.Proofs.Json.OneLine
import LiveQuery.Query.Snapshot

/-!
# The line of a snapshot

Snapshots are reported one after the other, each as a JSON record on a line of its own, and nothing
but the line breaks tells the records apart. So a record never has a break inside, whatever words
and keys have come over the wire (`printable_line`), and a reader of the line finds in it what the
snapshot holds (`line_decodes`). The record stands around the response, and takes one of the levels
of brackets that a reader goes down.
-/

namespace LiveQuery

open Json (Canonical Integral Members)

/-! ## Values of a record -/

namespace Json

/-- What a record can hold as it is: sorted members, integers that a reader keeps as integers, and
brackets that leave a level to the record. -/
structure Fits (v : Json) : Prop where
  canonical : v.Canonical
  integral : v.Integral
  nesting : v.nesting ≤ 126

theorem Fits.null : Fits .null := ⟨.null, .null, Nat.zero_le 126⟩

theorem Fits.string (s : String) : Fits (.string s) := ⟨.string s, .string s, Nat.zero_le 126⟩

theorem Fits.nat {n : Nat} (hn : n ≤ 0xFFFFFFFFFFFFFFFF) : Fits (.nat n) :=
  ⟨.number _, .nat hn, Nat.zero_le 126⟩

/-- What may be missing fits if it does where it is there. -/
theorem Fits.orNull {α : Type} {f : α → Json} {a? : Option α}
    (h : ∀ a, a? = some a → (f a).Fits) : (orNull f a?).Fits := by
  cases a? with
  | none => exact .null
  | some a => exact h a rfl

theorem orNull_eq_null_iff {α : Type} {f : α → Json} (hf : ∀ a, f a ≠ .null) (a? : Option α) :
    orNull f a? = .null ↔ a? = none := by
  cases a? with
  | none => exact iff_of_true rfl rfl
  | some a => exact iff_of_false (hf a) (Option.some_ne_none a)

/-- A record of values that fit is read from its line, member by member. -/
theorem parse_record {ms : Members} (hs : Sorted ms) (h : ∀ m ∈ ms, m.2.Fits) :
    parse (object ms).compact = .ok (object ms) := by
  have hcanonical : Canonical (object ms) := .object hs fun m hm => (h m hm).canonical
  have hintegral : Integral (object ms) := .object fun m hm => (h m hm).integral
  have hnesting : (object ms).nesting ≤ 127 :=
    Nat.succ_le_succ (membersNesting_le fun m hm => (h m hm).nesting)
  rw [parse_compact hintegral hnesting, hcanonical.settled_eq]

end Json

theorem Response.fits_noContent {r : Reply} (hstatus : r.status < 0x10000) :
    (Response.noContent r).toJson.Fits := by
  have hfits : (Json.nat r.status).Fits := .nat (by omega)
  have hnesting : 1 ≤ 126 := by decide
  exact ⟨.single hfits.canonical, .single hfits.integral, hnesting⟩

/-! ## Lines -/

namespace Snapshot

variable {s : Snapshot}

/-- The record of a snapshot has the same keys whatever there is to report, and they are in
order. -/
theorem sorted_members (s : Snapshot) : Json.Sorted s.members := by
  have hkeys : (s.members.map Prod.fst).Pairwise (· < ·) := by
    show ["error", "fetch", "fetched_at", "response"].Pairwise (· < ·)
    decide
  exact List.pairwise_map.mp hkeys

theorem fits_members (hcount : s.fetchCount ≤ 0xFFFFFFFFFFFFFFFF)
    (hvalue : ∀ v, s.response = some (.json v) → v.Fits)
    (hstatus : ∀ r, s.response = some (.noContent r) → r.status < 0x10000) :
    ∀ m ∈ s.members, m.2.Fits := by
  have herror : (Json.orNull (fun e => .string e.message) s.error).Fits :=
    .orNull fun e _ => .string e.message
  have hfetchedAt : (Json.orNull (fun t => .string t.text) s.fetchedAt).Fits :=
    .orNull fun t _ => .string t.text
  have hresponse : (Json.orNull Response.toJson s.response).Fits := by
    refine .orNull fun response h => ?_
    cases response with
    | json v => exact hvalue v h
    | noContent r => exact Response.fits_noContent (hstatus r h)
  simp only [members, List.forall_mem_cons]
  exact ⟨herror, .nat hcount, hfetchedAt, hresponse, fun _ h => nomatch h⟩

/-- There is no break in the line of a snapshot, and no other control. -/
theorem printable_line (s : Snapshot) (coloured : Bool) :
    Printable (s.line true coloured).toList := by
  show Printable (String.ofList (Json.object s.members).compactChars).toList
  rw [String.toList_ofList]
  exact Json.printable_compactChars (.object s.members)

/-- The line of a snapshot is one line, and a reader takes it for an object with the four keys of a
record. At each of them stands what the snapshot holds: the value of a response as it came, as long
as the record leaves it a level of brackets. -/
theorem line_decodes (coloured : Bool) (hcount : s.fetchCount ≤ 0xFFFFFFFFFFFFFFFF)
    (hvalue : ∀ v, s.response = some (.json v) → v.Fits)
    (hstatus : ∀ r, s.response = some (.noContent r) → r.status < 0x10000) :
    (∀ c ∈ (s.line true coloured).toList, 0x20 ≤ c.toNat) ∧
    ∃ ms : Members, Json.parse (s.line true coloured) = .ok (.object ms) ∧
      ms.map Prod.fst = ["error", "fetch", "fetched_at", "response"] ∧
      Json.find? "fetch" ms = some (.nat s.fetchCount) ∧
      (Json.find? "error" ms = some .null ↔ s.error = none) ∧
      (∀ e, s.error = some e → Json.find? "error" ms = some (.string e.message)) ∧
      (Json.find? "fetched_at" ms = some .null ↔ s.fetchedAt = none) ∧
      (∀ t, s.fetchedAt = some t → Json.find? "fetched_at" ms = some (.string t.text)) ∧
      (s.response = none → Json.find? "response" ms = some .null) ∧
      (∀ v, s.response = some (.json v) → Json.find? "response" ms = some v) ∧
      ∀ r, s.response = some (.noContent r) →
        Json.find? "response" ms = some (.object [("status", .nat r.status)]) := by
  refine ⟨printable_line s coloured, s.members,
    Json.parse_record s.sorted_members (fits_members hcount hvalue hstatus), rfl, rfl, ?_⟩
  have herror : Json.find? "error" s.members =
      some (Json.orNull (fun e => .string e.message) s.error) := rfl
  have hfetchedAt : Json.find? "fetched_at" s.members =
      some (Json.orNull (fun t => .string t.text) s.fetchedAt) := rfl
  have hresponse : Json.find? "response" s.members =
      some (Json.orNull Response.toJson s.response) := rfl
  rw [herror, hfetchedAt, hresponse, Option.some_inj, Option.some_inj,
    Json.orNull_eq_null_iff fun _ => Json.noConfusion,
    Json.orNull_eq_null_iff fun _ => Json.noConfusion]
  refine ⟨Iff.rfl, ?_, Iff.rfl, ?_, ?_, ?_, ?_⟩
  · intro e he
    rw [he]
    rfl
  · intro t ht
    rw [ht]
    rfl
  · intro hnone
    rw [hnone]
    rfl
  · intro v hv
    rw [hv]
    rfl
  · intro r hr
    rw [hr]
    rfl

/-- An error whose words break the line and hold quotes and a control, after a response with a key
that does so too. -/
def broken : Snapshot :=
  ⟨false, some (.http 500 "a\n\"b\"\x01"), some (.json Json.sample), some ⟨0, 5000000⟩, 2⟩

theorem line_decodes_broken :
    broken.line true false =
      "\x7b\"error\":\"HTTP 500: a\\n\\\"b\\\"\\u0001\",\"fetch\":2," ++
      "\"fetched_at\":\"1970-01-01T00:00:00.005Z\",\"response\":\x7b\"\\\"\\n\":" ++
      "[-9223372036854775808,\"\\u0000é😀\\\\\",[]],\"n\":18446744073709551615\x7d\x7d" ∧
    Json.sample.Fits ∧
    ∃ ms : Members, Json.parse (broken.line true false) = .ok (.object ms) ∧
      ms.map Prod.fst = ["error", "fetch", "fetched_at", "response"] ∧
      Json.find? "fetch" ms = some (.nat 2) ∧
      Json.find? "error" ms = some (.string "HTTP 500: a\n\"b\"\x01") ∧
      Json.find? "response" ms = some Json.sample := by
  have hsample : Json.sample.Fits :=
    ⟨Json.canonical_sample, Json.integral_sample, by decide⟩
  refine ⟨by decide +kernel, hsample, ?_⟩
  have hvalue : ∀ v, broken.response = some (.json v) → v.Fits := by
    intro v hv
    cases hv
    exact hsample
  obtain ⟨-, ms, hparse, hkeys, hfetch, -, herror, -, -, -, hresponse, -⟩ :=
    line_decodes false (by decide) hvalue fun r hr => nomatch hr
  exact ⟨ms, hparse, hkeys, hfetch, herror _ rfl, hresponse _ rfl⟩

end Snapshot
end LiveQuery
