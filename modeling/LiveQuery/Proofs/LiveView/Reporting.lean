import LiveQuery.Proofs.LiveView.Standing
import LiveQuery.Proofs.Registry.Delivery

/-!
# What a view reports

A view knows its query by the latest snapshot only. Fetches that settle while it does not look are
passed over, others begin before it has looked, and it may be told to end at any time. Whatever the
schedule: each line is for a settled fetch and for a later one than the line before it
(`Report.Tells`), and the view leaves when its report is full or it is told to, and not before
(`Progress`).
-/

namespace LiveQuery

/-- The lines of a report are those for a list of snapshots, each settled and of a later fetch than
the one before it. -/
structure Report.Tells (r : Report) (ss : List Snapshot) : Prop where
  lines : r.lines = ss.map r.line
  seen : ∀ s ∈ ss, s.fetchCount ≤ r.seen
  last : r.seen = 0 ∨ ∃ s ∈ ss, s.fetchCount = r.seen
  rising : (ss.map Snapshot.fetchCount).Pairwise (· < ·)
  settled : ∀ s ∈ ss, s.loading = false ∧ (s.error.isSome = true ∨ s.response.isSome = true)

namespace Report

variable {r : Report} {s : Snapshot} {ss : List Snapshot}

theorem wants_iff : r.wants s = true ↔ r.seen < s.fetchCount ∧ s.loading = false := by
  simp [wants]

theorem Tells.count (h : r.Tells ss) : r.count = ss.length := by
  rw [Report.count, h.lines, List.length_map]

/-- A snapshot that a report wants is of a later fetch than all that it has lines for. -/
theorem Tells.add (h : r.Tells ss) (hs : r.wants s = true)
    (hsettled : s.error.isSome = true ∨ s.response.isSome = true) :
    (r.add s).Tells (ss ++ [s]) := by
  obtain ⟨hseen, hloading⟩ := wants_iff.mp hs
  refine ⟨?_, ?_, .inr ⟨s, List.mem_concat_self, rfl⟩, ?_, ?_⟩
  · change r.lines ++ [r.line s] = (ss ++ [s]).map r.line
    rw [h.lines, List.map_append, List.map_singleton]
  · intro t ht
    change t.fetchCount ≤ s.fetchCount
    rcases List.mem_append.mp ht with ht | ht
    · exact Nat.le_trans (h.seen t ht) (Nat.le_of_lt hseen)
    · exact Nat.le_of_eq (congrArg Snapshot.fetchCount (List.mem_singleton.mp ht))
  · rw [List.map_append, List.pairwise_append]
    refine ⟨h.rising, List.pairwise_singleton _ _, ?_⟩
    simp only [List.mem_map, List.mem_singleton, List.map_cons, List.map_nil]
    rintro _ ⟨t, ht, rfl⟩ _ rfl
    exact Nat.lt_of_le_of_lt (h.seen t ht) hseen
  · intro t ht
    rcases List.mem_append.mp ht with ht | ht
    · exact h.settled t ht
    · rw [List.mem_singleton.mp ht]
      exact ⟨hloading, hsettled⟩

/-- A report wants every settled snapshot that is of a later fetch than all it has lines for. -/
theorem Tells.wants (h : r.Tells ss) (hcount : 0 < s.fetchCount)
    (hlater : ∀ t ∈ ss, t.fetchCount < s.fetchCount) (hloading : s.loading = false) :
    r.wants s = true := by
  refine wants_iff.mpr ⟨?_, hloading⟩
  rcases h.last with hzero | ⟨t, ht, hseen⟩
  · exact hzero ▸ hcount
  · exact hseen ▸ hlater t ht

end Report

namespace Scene

section

variable (c : Settings) (o : ViewOrder)

/-- The snapshot for which a line is written on the way from one state to the next. -/
def shown? (s s' : Scene) : Option Snapshot :=
  if s.report.count < s'.report.count then some s.snapshot else none

/-- The snapshots for which lines are written in a run, in their order. -/
def shown : List Step → Scene → List Snapshot
  | [], _ => []
  | e :: es, s => (shown? s (s.step c o e)).toList ++ shown es (s.step c o e)

/-- A report of so many lines may have one more. -/
def HasRoom (count : Nat) : Prop :=
  (o.polls c = false → count = 0) ∧ ∀ n, o.limit = some n → count < max 1 n

/-- A report has as many lines as it is to have. -/
def IsFull (count : Nat) : Prop :=
  if o.polls c then ∃ n, o.limit = some n ∧ count = max 1 n else count = 1

end

variable {c : Settings} {o : ViewOrder} {s : Scene}

theorem hasRoom_zero : HasRoom c o 0 :=
  ⟨fun _ => rfl, fun n _ => Nat.lt_of_lt_of_le Nat.zero_lt_one (Nat.le_max_left 1 n)⟩

/-- A view that has written one more line leaves exactly if its report is full. -/
theorem HasRoom.succ {r : Report} (h : HasRoom c o r.count) (hlimit : r.limit = o.limit)
    (t : Snapshot) :
    if !o.polls c || (r.add t).isComplete then IsFull c o (r.count + 1)
    else HasRoom c o (r.count + 1) := by
  have hcount : (r.add t).count = r.count + 1 := by simp [Report.count, Report.add]
  have hcomplete : (r.add t).isComplete = o.limit.any (· ≤ r.count + 1) := by
    rw [Report.isComplete, hcount, ← hlimit]
    rfl
  rw [hcomplete]
  cases hp : o.polls c with
  | false => simp [IsFull, hp, h.1 hp]
  | true =>
    cases ho : o.limit with
    | none => simp [HasRoom, hp, ho]
    | some n =>
      have hlt : r.count < max 1 n := h.2 n ho
      by_cases hn : n ≤ r.count + 1
      · simp only [hn, Bool.not_true, Bool.false_or, Option.any_some, decide_true, if_true, IsFull,
          hp]
        exact ⟨n, ho, by omega⟩
      · simp only [hn, Bool.not_true, Bool.false_or, Option.any_some, decide_false, HasRoom, hp]
        refine ⟨by simp, ?_⟩
        rintro m hm
        cases ho.symm.trans hm
        omega

/-! ## What a step does to the report -/

/-- What a step makes of the report of a view, and of where the view is. -/
inductive Advances (c : Settings) (o : ViewOrder) (e : Step) (s s' : Scene) : Prop
  | keeps (hr : s'.report = s.report) (hp : s'.phase = s.phase)
    (hc : s.cancelled = true → s'.cancelled = true)
  | makes (hp : s.phase = .making) (hs : s' = s.make c o)
  | looks (write : Except String Unit) (he : e = .look write) (hp : s.phase = .looking)
    (hs : s' = s.look c o write)
  | leaves (hp : s.phase = .looking) (hc : s.cancelled = true) (hs : s' = s.close c o)
  | finishes (k : Nat) (hp : s.phase = .disposing k) (hs : s' = s.returnOk)

@[simp] theorem cancelled_onWatch (e : Watched.Step) (s : Scene) :
    (s.onWatch e).cancelled = s.cancelled := by
  simp only [onWatch]
  split <;> rfl

@[simp] theorem cancelled_returnOk (s : Scene) : s.returnOk.cancelled = s.cancelled := by
  simp only [returnOk, cancelled_onWatch]

theorem advances_step (c : Settings) (o : ViewOrder) (e : Step) (s : Scene) :
    Advances c o e s (s.step c o e) := by
  cases e with
  | task h m =>
    simp only [step]
    split <;> exact .keeps rfl rfl id
  | part | rearrange => exact .keeps rfl rfl id
  | send | hangUp | begin_ | observe =>
    exact .keeps (report_onWatch _ s) (phase_onWatch _ s) fun hc =>
      (cancelled_onWatch _ s).trans hc
  | cancel => exact .keeps (report_onWatch _ s) (phase_onWatch _ s) fun _ => rfl
  | make =>
    cases hp : s.phase with
    | making =>
      simp only [step, hp]
      exact .makes hp rfl
    | looking | disposing | returned =>
      simp only [step, hp]
      exact .keeps rfl rfl id
  | look write =>
    cases hp : s.phase with
    | looking =>
      simp only [step, hp]
      exact .looks write rfl hp rfl
    | making | disposing | returned =>
      simp only [step, hp]
      exact .keeps rfl rfl id
  | leave =>
    cases hp : s.phase with
    | looking =>
      simp only [step, hp]
      split
      · exact .leaves hp ‹_› rfl
      · exact .keeps rfl rfl id
    | making | disposing | returned =>
      simp only [step, hp]
      exact .keeps rfl rfl id
  | finish =>
    cases hp : s.phase with
    | disposing k =>
      simp only [step, hp]
      split
      · exact .finishes k hp rfl
      · exact .keeps rfl rfl id
    | making | looking | returned =>
      simp only [step, hp]
      exact .keeps rfl rfl id

/-- A view whose filter can be read and whose interval is long enough makes its query. -/
theorem make_of_accepted {filter : Filter} (hf : o.flags.filter? = .ok filter)
    (hv : (o.options c).validate = .ok ()) (s : Scene) :
    (s.make c o).phase = .looking ∧ (s.make c o).report = s.report := by
  have hc : ∃ made, s.world.registry.create (some o.endpoint) filter (o.options c) true =
      .ok made := by
    simp only [Registry.create, Registry.make, Registry.check, hv]
    cases (o.options c).isPolling <;> exact ⟨_, rfl⟩
  obtain ⟨⟨h, registry, effects⟩, hc⟩ := hc
  simp only [make, hf, hc]
  trivial

variable {raced : Prop}

/-- A view that ends keeps its report, and is on its way to return how many lines that has. -/
theorem close_of_isMade (hm : s.IsMade c o)
    (he : o.polls c = true → s.world.registry.entries = [(0, 0)]) :
    (s.close c o).report = s.report ∧ (s.close c o).cancelled = s.cancelled ∧
      ((∃ k, (s.close c o).phase = .disposing k) ∨
        (s.close c o).phase = .returned (.ok s.report.count)) := by
  cases ho : o.polls c with
  | false =>
    rw [close_of_not_polls ho]
    exact ⟨report_returnOk s, cancelled_returnOk s, .inr (phase_returnOk s)⟩
  | true =>
    rw [(hm.close_of_polls ho he).2]
    exact ⟨rfl, rfl, .inl ⟨_, rfl⟩⟩

/-- A view that has written a line for what its query knows. -/
def wrote (s : Scene) : Scene := { s with report := s.report.add s.snapshot }

theorem look_of_not_wants (write : Except String Unit) (hw : s.report.wants s.snapshot = false) :
    s.look c o write = s := by
  simp [look, hw]

theorem look_of_wants (hw : s.report.wants s.snapshot = true) :
    s.look c o (.ok ()) =
      if !o.polls c || (s.report.add s.snapshot).isComplete then s.wrote.close c o
      else s.wrote := by
  simp only [look, hw, wrote, Bool.not_true, Bool.false_eq_true, if_false]

theorem IsMade.wrote (hm : s.IsMade c o) : s.wrote.IsMade c o :=
  ⟨hm.orderly, hm.query, hm.served, hm.busy⟩

/-- What a view looks at when it looks at its query. -/
theorem Stands.outcome_of_wants (hs : s.Stands c o raced) (hp : s.phase = .looking)
    (hk : s.world.Knows 0) (hw : s.report.wants s.snapshot = true) :
    s.snapshot.error.isSome = true ∨ s.snapshot.response.isSome = true := by
  obtain ⟨hseen, hloading⟩ := Report.wants_iff.mp hw
  obtain ⟨q, hq, -⟩ := (hs.of_looking hp).1.query
  have hsnapshot : s.snapshot = q.snapshot := by simp [snapshot, hq]
  rw [hsnapshot] at hseen hloading ⊢
  exact hk.outcome hq (Nat.lt_of_le_of_lt (Nat.zero_le _) hseen) hloading

/-! ## What the query knows -/

theorem knows_make (hw : s.world = .start (.ofUrl c.api.baseUrl)) :
    (s.make c o).world.Knows 0 := by
  simp only [make]
  split
  · exact hw ▸ World.knows_start 0 _
  · split
    · exact hw ▸ World.knows_start 0 _
    · rename_i hc
      rw [hw] at hc
      obtain ⟨-, ⟨ms, hqueries⟩, -⟩ := Registry.create_empty hc
      intro q hq
      simp only [World.query?, hqueries, List.getElem?_cons_zero, Option.some.injEq] at hq
      cases hq
      exact ⟨_, Query.matches_ledger (Ledger.matches_fresh ..) Snapshot.reports_blank ms⟩

theorem knows_close (hk : s.world.Knows 0) (hm : s.IsMade c o)
    (he : o.polls c = true → s.world.registry.entries = [(0, 0)]) :
    (s.close c o).world.Knows 0 := by
  cases ho : o.polls c with
  | false =>
    rw [close_of_not_polls ho, world_returnOk]
    exact hk
  | true =>
    rw [(hm.close_of_polls ho he).2]
    exact (hk.step _).step _

theorem Stands.knows_step (hs : s.Stands c o raced) (hk : s.world.Knows 0) (e : Step) :
    (s.step c o e).world.Knows 0 := by
  cases goes_step c o e s with
  | beside hb =>
    rcases hb.world with hw | ⟨t, hw, -⟩
    · exact hw ▸ hk
    · exact hw ▸ hk.step t
  | make _ hp hs' => exact hs' ▸ knows_make (hs.of_making hp).1
  | look write _ hp hs' =>
    obtain ⟨hm, hentries, -⟩ := hs.of_looking hp
    rw [hs']
    cases hw : s.report.wants s.snapshot with
    | false =>
      rw [look_of_not_wants write hw]
      exact hk
    | true =>
      cases write with
      | error why =>
        simp only [look, hw, Bool.not_true, Bool.false_eq_true, if_false]
        exact hk
      | ok =>
        rw [look_of_wants hw]
        split
        · exact knows_close (s := s.wrote) hk hm.wrote hentries
        · exact hk
  | leave _ hp hs' =>
    obtain ⟨hm, hentries, -⟩ := hs.of_looking hp
    exact hs' ▸ knows_close hk hm hentries
  | finish _ _ _ _ hs' =>
    rw [hs', world_returnOk]
    exact hk

/-! ## The whole report -/

/-- How far a view has come that has reported so much: it has room for more while it looks, and it
leaves because its report is full or it has been told to. -/
inductive Progress (c : Settings) (o : ViewOrder) (s : Scene) (count : Nat) : Prop
  | making (hp : s.phase = .making) (hcount : count = 0)
  | looking (hp : s.phase = .looking) (hroom : HasRoom c o count)
  | leaving (hp : (∃ k, s.phase = .disposing k) ∨ s.phase = .returned (.ok count))
    (hwhy : IsFull c o count ∨ s.cancelled = true ∧ HasRoom c o count)

theorem Progress.of_phase {s' : Scene} {count : Nat} (h : Progress c o s count)
    (hp : s'.phase = s.phase) (hc : s.cancelled = true → s'.cancelled = true) :
    Progress c o s' count := by
  cases h with
  | making hp' hcount => exact .making (hp.trans hp') hcount
  | looking hp' hroom => exact .looking (hp.trans hp') hroom
  | leaving hp' hwhy =>
    exact .leaving (by rwa [hp]) (hwhy.imp_right fun ⟨hcancelled, hroom⟩ => ⟨hc hcancelled, hroom⟩)

theorem Progress.of_making {count : Nat} (h : Progress c o s count) (hp : s.phase = .making) :
    count = 0 := by
  cases h with
  | making _ hcount => exact hcount
  | looking hp' | leaving hp' => simp [hp] at hp'

theorem Progress.of_looking {count : Nat} (h : Progress c o s count) (hp : s.phase = .looking) :
    HasRoom c o count := by
  cases h with
  | looking _ hroom => exact hroom
  | making hp' | leaving hp' => simp [hp] at hp'

theorem Progress.of_disposing {count k : Nat} (h : Progress c o s count)
    (hp : s.phase = .disposing k) : IsFull c o count ∨ s.cancelled = true ∧ HasRoom c o count := by
  cases h with
  | leaving _ hwhy => exact hwhy
  | making hp' | looking hp' => simp [hp] at hp'

theorem Progress.of_returned {count : Nat} (h : Progress c o s count)
    {result : Except CommandError Nat} (hp : s.phase = .returned result) :
    result = .ok count ∧ (s.cancelled = false → IsFull c o count) := by
  cases h with
  | leaving hp' hwhy =>
    refine ⟨?_, fun hc => hwhy.resolve_right fun ⟨hcancelled, _⟩ => ?_⟩
    · rcases hp' with ⟨k, hp'⟩ | hp' <;> cases hp.symm.trans hp'
      rfl
    · rw [hc] at hcancelled
      cases hcancelled
  | making hp' | looking hp' => simp [hp] at hp'

/-- A report never has more lines than it is to have. -/
theorem Progress.le {count : Nat} (h : Progress c o s count) :
    (o.polls c = false → count ≤ 1) ∧ ∀ n, o.limit = some n → count ≤ max 1 n := by
  have of_room : HasRoom c o count →
      (o.polls c = false → count ≤ 1) ∧ ∀ n, o.limit = some n → count ≤ max 1 n := fun hroom =>
    ⟨fun hp => hroom.1 hp ▸ Nat.zero_le 1, fun n hn => Nat.le_of_lt (hroom.2 n hn)⟩
  cases h with
  | making _ hcount => exact of_room (hcount ▸ hasRoom_zero)
  | looking _ hroom => exact of_room hroom
  | leaving _ hwhy =>
    rcases hwhy with hfull | ⟨-, hroom⟩
    · cases hp : o.polls c with
      | false =>
        simp only [IsFull, hp, Bool.false_eq_true, if_false] at hfull
        exact ⟨fun _ => Nat.le_of_eq hfull, fun n _ => hfull ▸ Nat.le_max_left 1 n⟩
      | true =>
        simp only [IsFull, hp, if_true] at hfull
        obtain ⟨n, hn, hcount⟩ := hfull
        refine ⟨fun hno => Bool.noConfusion hno, fun m hm => ?_⟩
        cases hn.symm.trans hm
        exact Nat.le_of_eq hcount
    · exact of_room hroom

/-- The report of a view is one on the snapshots shown so far, in the style and within the limit
that was ordered. -/
structure Reporting (c : Settings) (o : ViewOrder) (s : Scene) (ss : List Snapshot) : Prop where
  style : s.report.style = o.style
  limit : s.report.limit = o.limit
  tells : s.report.Tells ss
  progress : Progress c o s ss.length

variable {ss : List Snapshot}

theorem shown?_of_report {s' : Scene} (hr : s'.report = s.report) : shown? s s' = none := by
  simp [shown?, hr]

/-- A step that leaves the report as it is. -/
theorem Reporting.of_report {s' : Scene} (h : s.Reporting c o ss) (hr : s'.report = s.report)
    (hp : Progress c o s' ss.length) :
    s'.Reporting c o (ss ++ (shown? s s').toList) := by
  rw [shown?_of_report hr, Option.toList_none, List.append_nil]
  refine ⟨?_, ?_, ?_, hp⟩ <;> rw [hr]
  · exact h.style
  · exact h.limit
  · exact h.tells

/-- A look at news writes a line for it. -/
theorem shown?_look (hs : s.Stands c o raced) (hp : s.phase = .looking)
    (hw : s.report.wants s.snapshot = true) :
    shown? s (s.look c o (.ok ())) = some s.snapshot := by
  obtain ⟨hm, hentries, -⟩ := hs.of_looking hp
  have hreport : (s.look c o (.ok ())).report = s.report.add s.snapshot := by
    rw [look_of_wants hw]
    split
    · exact (close_of_isMade hm.wrote hentries).1
    · rfl
  simp [shown?, hreport, Report.count, Report.add]

theorem Reporting.look (h : s.Reporting c o ss) (hs : s.Stands c o raced)
    (hk : s.world.Knows 0) (hp : s.phase = .looking) :
    (s.look c o (.ok ())).Reporting c o (ss ++ (shown? s (s.look c o (.ok ()))).toList) := by
  have hroom : HasRoom c o ss.length := h.progress.of_looking hp
  cases hw : s.report.wants s.snapshot with
  | false =>
    rw [look_of_not_wants _ hw]
    exact h.of_report rfl h.progress
  | true =>
    obtain ⟨hm, hentries, -⟩ := hs.of_looking hp
    have htells := h.tells.add hw (hs.outcome_of_wants hp hk hw)
    -- Whether the view ends is decided on the report that has the new line.
    have hnext := HasRoom.succ (h.tells.count ▸ hroom) h.limit s.snapshot
    have hlength : (ss ++ [s.snapshot]).length = s.report.count + 1 := by
      simp [h.tells.count]
    rw [← hlength] at hnext
    rw [shown?_look hs hp hw, Option.toList_some, look_of_wants hw]
    split
    case isTrue hends =>
      rw [if_pos hends] at hnext
      obtain ⟨hreport, -, hphase⟩ := close_of_isMade hm.wrote hentries
      have hcount : s.wrote.report.count = (ss ++ [s.snapshot]).length := htells.count
      rw [hcount] at hphase
      refine ⟨?_, ?_, ?_, .leaving hphase (.inl hnext)⟩ <;> rw [hreport]
      · exact h.style
      · exact h.limit
      · exact htells
    case isFalse hgoes =>
      rw [if_neg hgoes] at hnext
      exact ⟨h.style, h.limit, htells, .looking hp hnext⟩

theorem Reporting.step {filter : Filter} (h : s.Reporting c o ss) (hs : s.Stands c o raced)
    (hk : s.world.Knows 0) (hf : o.flags.filter? = .ok filter)
    (hv : (o.options c).validate = .ok ()) {e : Step} (he : ∀ why, e ≠ .look (.error why)) :
    (s.step c o e).Reporting c o (ss ++ (shown? s (s.step c o e)).toList) := by
  cases advances_step c o e s with
  | keeps hr hp hc => exact h.of_report hr (h.progress.of_phase hp hc)
  | makes hp hs' =>
    obtain ⟨hphase, hreport⟩ := make_of_accepted hf hv s
    rw [hs']
    refine h.of_report hreport (.looking hphase ?_)
    have hzero : ss.length = 0 := h.progress.of_making hp
    exact hzero ▸ hasRoom_zero
  | looks write he' hp hs' =>
    cases write with
    | error why => exact absurd he' (he why)
    | ok => exact hs' ▸ h.look hs hk hp
  | leaves hp hc hs' =>
    obtain ⟨hm, hentries, -⟩ := hs.of_looking hp
    obtain ⟨hreport, hcancelled, hphase⟩ := close_of_isMade hm hentries
    rw [hs']
    refine h.of_report hreport (.leaving ?_ (.inr ⟨hcancelled.trans hc, h.progress.of_looking hp⟩))
    exact h.tells.count ▸ hphase
  | finishes k hp hs' =>
    rw [hs']
    refine h.of_report (report_returnOk s) (.leaving (.inr ?_) ?_)
    · rw [phase_returnOk, h.tells.count]
    · rw [cancelled_returnOk]
      exact h.progress.of_disposing hp

theorem Reporting.run {filter : Filter} (h : s.Reporting c o ss) (hs : s.Stands c o raced)
    (hk : s.world.Knows 0) (hf : o.flags.filter? = .ok filter)
    (hv : (o.options c).validate = .ok ()) {es : List Step}
    (hes : ∀ why, .look (.error why) ∉ es) :
    (s.run c o es).Reporting c o (ss ++ s.shown c o es) := by
  -- Where the view stands and what its query knows go along: a look relies on both.
  induction es generalizing s ss raced with
  | nil => rwa [shown, List.append_nil]
  | cons e es ih =>
    have he : ∀ why, e ≠ .look (.error why) := fun why he =>
      hes why (he ▸ List.mem_cons_self ..)
    rw [run_cons, shown, ← List.append_assoc]
    exact ih (h.step hs hk hf hv he) (hs.step e) (hs.knows_step hk e) fun why hmem =>
      hes why (List.mem_cons_of_mem e hmem)

/-- The first fetch succeeds, and is looked at twice; the second one fails. -/
def fetchedTwice : List Step :=
  [.make, .task 0 (.beginLoop 0), .task 0 (.settleLoop 0 (.ok (.json .null)) ⟨0, 0⟩ 0),
    .look (.ok ()), .look (.ok ()), .task 0 (.wake 0 1000), .look (.ok ()),
    .task 0 (.settleLoop 0 (.error (.timeout 1)) ⟨1, 0⟩ 1000), .look (.ok ()), .part 0, .finish]

end Scene
end LiveQuery
