import HeapSampler.Proofs.Handles
import HeapSampler.Proofs.Export
import HeapSampler.Bench.Collector

/-!
# Nested captures

A capture of an allocation's stack runs in the host, which may fire any events meanwhile:
allocations among them, whose own captures may fire more, and any capture may fail.  The index
`d` of `EventRun d` and `Collector.Midway d` counts the captures in progress.

A capture starts only with fewer than `maxCaptureDepth` in progress (`depth_lt_of_beginAlloc`),
so no event is ever fired with more in progress (`Collector.Midway.depth_le`).  An allocation
returns, on every path, to the captures in progress it started with (`Collector.Midway.allocCall`),
and the collectors with none in progress are exactly those between calls
(`Collector.midway_zero_iff`).  The bench runs exactly such calls: when its scripts fire only
events, a run of its steps is a run of events, each allocation one call whose capture's steps
run one level deeper (`Bench.CollectorBench.runs_are_eventRuns`).

At the bound, an allocation whose draw is admitted captures nothing: it forgets the object under
its handle, as a free does, and counts one sample lost for the lock
(`Collector.beginAlloc_at_bound`).  Forgetting lets go of the record under the handle, which
succeeds when the tables count the stored frames; a `Collector.Trail`, the way a collector with
captures in progress came about, keeps the sites it interned, and the tables count the stored
frames whenever the location hash tells those sites apart (`Collector.Trail.tablesHold`).

## Main definitions

* `EventRun.append` — one run of events after another.
* `Collector.AllocCall.run` — an allocation as a run of events.
* `Collector.Trail`, `Collector.Trail.sites` — how a collector with captures in progress came
  about, and the sites interned on the way.
* `Bench.CollectorStep.firesEvents` — a bench step that fires only events.

## Main results

* `Bench.CollectorBench.runs_are_eventRuns` — the bench's runs are runs of events.
* `Collector.Trail.beginAlloc_at_bound` — at the bound, an admitted allocation forgets the object
  under its handle and counts a lost sample.
* `captures_nest_at_most_twice` — the facts above together.
-/

namespace HeapSampler

/-- One run of events after another. -/
def EventRun.append {d : Nat} {c₁ c₂ c₃ : Collector} :
    EventRun d c₁ c₂ → EventRun d c₂ c₃ → EventRun d c₁ c₃
  | .nil _ _, r => r
  | .free h hs rest, r => .free h hs (rest.append r)
  | .ret probe draws hs rest, r => .ret probe draws hs (rest.append r)
  | .alloc h draw hs rest, r => .alloc h draw hs (rest.append r)
  | .allocFailed h draw m hs nested rest, r => .allocFailed h draw m hs nested (rest.append r)
  | .allocCaptured h size draw m frames hs nested hf rest, r =>
    .allocCaptured h size draw m frames hs nested hf (rest.append r)

namespace Collector

variable {c c' : Collector} {P : Set (UInt64 × Int64)}

/-! ### Captures in progress -/

/-- No event is fired with more captures in progress than the bound. -/
theorem Midway.depth_le {d : Nat} (hm : Midway d c) : d ≤ maxCaptureDepth := by
  induction hm with
  | between _ => exact Nat.zero_le _
  | capture _ hb _ => exact depth_lt_of_beginAlloc hb
  | after _ _ ih => exact ih

/-- An allocation, whatever path it took, is a run of one event at its own depth. -/
def AllocCall.run {d : Nat} {h : UInt64} : AllocCall d h c c' → EventRun d c c'
  | .uncaptured draw hs => .alloc h draw hs (.nil d _)
  | .failed draw m hs nested => .allocFailed h draw m hs nested (.nil d _)
  | .captured size draw m frames hs nested hf =>
    .allocCaptured h size draw m frames hs nested hf (.nil d _)

/-- An allocation returns to the captures in progress it started with, whether it captured
nothing, its capture failed or it made a record, and whatever the events of its capture did. -/
theorem Midway.allocCall {d : Nat} {h : UInt64} (hm : Midway d c) (a : AllocCall d h c c') :
    Midway d c' :=
  .after hm a.run

/-- A collector with no capture in progress was reached by calls. -/
theorem Midway.reachable {d : Nat} (hm : Midway d c) (hd : d = 0) : Reachable c := by
  induction hm with
  | between hc => exact hc
  | capture _ _ _ => exact absurd hd (Nat.succ_ne_zero _)
  | after _ r ih =>
    subst hd
    obtain ⟨t⟩ := ih rfl
    exact ⟨.events t r⟩

/-- The collectors with no capture in progress are exactly those between calls. -/
theorem midway_zero_iff : Midway 0 c ↔ Reachable c :=
  ⟨fun hm => hm.reachable rfl, .between⟩

/-! ### Trails -/

/-- How a collector with `d` captures in progress came about: a history, then allocations that
began a capture and runs of events fired inside them. -/
inductive Trail : Nat → Collector → Type
  /-- Between calls, after a history. -/
  | between {c : Collector} : History c → Trail 0 c
  /-- At the start of a capture. -/
  | capture {d : Nat} {c c₁ : Collector} {h : UInt64} {draw : UInt32} {m : CaptureMethod} :
      Trail d c → c.beginAlloc h draw d = .ok (c₁, some m) → Trail (d + 1) c₁
  /-- After events. -/
  | after {d : Nat} {c c' : Collector} : Trail d c → EventRun d c c' → Trail d c'

/-- The sites of the frames interned along a trail. -/
def Trail.sites : {d : Nat} → {c : Collector} → Trail d c → List (UInt64 × Int64)
  | _, _, .between t => t.sites
  | _, _, .capture t _ => t.sites
  | _, _, .after t r => t.sites ++ r.sites

/-- A trail leads where the host can fire an event. -/
theorem Trail.midway {d : Nat} (t : Trail d c) : Midway d c := by
  induction t with
  | between t => exact .between ⟨t⟩
  | capture _ hb ih => exact .capture ih hb
  | after _ r ih => exact .after ih r

/-- Wherever the host can fire an event, some trail leads. -/
theorem Midway.trail {d : Nat} (hm : Midway d c) : Nonempty (Trail d c) := by
  induction hm with
  | between hc =>
    obtain ⟨t⟩ := hc
    exact ⟨.between t⟩
  | capture _ hb ih =>
    obtain ⟨t⟩ := ih
    exact ⟨.capture t hb⟩
  | after _ r ih =>
    obtain ⟨t⟩ := ih
    exact ⟨.after t r⟩

/-- Along a trail whose interned sites lie in `P`, a set that the hash tells apart, the tables
count the stored frames. -/
theorem Trail.tablesHold (hP : Set.InjOn (Function.uncurry locationId) P) {d : Nat}
    (t : Trail d c) (hsub : ∀ p ∈ t.sites, p ∈ P) : c.TablesHold P := by
  induction t with
  | between t => exact History.tablesHold hP t hsub
  | capture _ hb ih => exact (ih hsub).releases (beginAlloc_releases hb)
  | after _ r ih =>
    simp only [sites, List.mem_append] at hsub
    exact EventRun.tablesHold hP r (fun p hp => hsub p (.inr hp)) (ih fun p hp => hsub p (.inl hp))

/-! ### At the bound -/

/-- Forgetting the object under a handle succeeds when the tables count the stored frames. -/
theorem TablesHold.evict_ok (ht : c.TablesHold P) (h : UInt64) : ∃ c', c.evict h = .ok c' := by
  unfold evict
  cases c.heap.remove h with
  | mk heap removed =>
    cases removed with
    | none => exact ⟨c, rfl⟩
    | some id =>
      -- The heap index lets go of the record after clearing its handle, which keeps its frames.
      have ht₀ : ({ c with heap } : Collector).TablesHold P := ht.of_eq rfl rfl rfl
      have ht₁ : ({ c with heap }.updateRecord id SampleRecord.clearHandle).TablesHold P :=
        ht₀.releases (Releases.update _ id SampleRecord.clearHandle fun _ => rfl)
      exact ht₁.release_ok id

/-- With `maxCaptureDepth` captures or more in progress, an allocation whose draw the sampling
rate admits forgets the object under its handle and counts one sample lost for the lock. -/
theorem beginAlloc_at_bound {h : UInt64} {draw : UInt32} {d : Nat} (hd : maxCaptureDepth ≤ d)
    (ha : c.sampleRate.admits draw = true) :
    c.beginAlloc h draw d =
      (c.evict h).map fun c₁ => ({ c₁ with dropped.noLock := c₁.dropped.noLock + 1 }, none) := by
  unfold beginAlloc
  cases he : c.evict h with
  | error e => rfl
  | ok c₁ =>
    -- Forgetting keeps the sampling rate, so the draw is still admitted.
    have ha₁ : c₁.sampleRate.admits draw = true := by
      rw [(evict_settings he).1]
      exact ha
    rcases sampleDecision_cases c₁ draw d with ⟨hn, -⟩ | ⟨-, -, hs⟩ | ⟨-, hlt, -⟩ | ⟨-, hlt, -⟩
    · rw [ha₁] at hn
      cases hn
    · simp only [Except.map, hs]
    · exact absurd hd (Nat.not_le_of_lt hlt)
    · exact absurd hd (Nat.not_le_of_lt hlt)

/-- Below the bound, with room in both containers and nothing under the handle, an admitted
allocation asks for a capture and changes nothing yet. -/
theorem beginAlloc_of_room {h : UInt64} {draw : UInt32} {d : Nat} (hg : c.heap.get? h = none)
    (ha : c.sampleRate.admits draw = true) (hd : d < maxCaptureDepth)
    (hl : c.ledger.isFull = false) (hh : c.heap.isFull = false) :
    c.beginAlloc h draw d = .ok (c, some c.method) := by
  have he : c.evict h = .ok c := by
    unfold evict HeapIndex.remove
    rw [hg]
  have hroom : c.checkRoom = (c, true) := by
    rcases checkRoom_cases c with ⟨hl', -⟩ | ⟨-, hh', -⟩ | ⟨-, -, hc⟩
    · rw [hl] at hl'
      cases hl'
    · rw [hh] at hh'
      cases hh'
    · exact hc
  unfold beginAlloc
  rw [he]
  rcases sampleDecision_cases c draw d with ⟨hn, -⟩ | ⟨-, hle, -⟩ | ⟨-, -, hc, -⟩ | ⟨-, -, -, hs⟩
  · rw [ha] at hn
    cases hn
  · exact absurd hd (Nat.not_lt_of_le hle)
  · rw [hroom] at hc
    cases hc
  · simp only [Except.map, hs]

/-- **At the bound an allocation captures nothing.**  Along a trail whose interned sites the
hash tells apart, with `maxCaptureDepth` captures or more in progress, an allocation whose draw
the sampling rate admits forgets the object under its handle, as a free does, and counts one
sample lost for the lock. -/
theorem Trail.beginAlloc_at_bound {d : Nat} (t : Trail d c)
    (hinj : Set.InjOn (Function.uncurry locationId) {p | p ∈ t.sites}) (hd : maxCaptureDepth ≤ d)
    (h : UInt64) {draw : UInt32} (ha : c.sampleRate.admits draw = true) :
    ∃ c₁, c.evict h = .ok c₁ ∧ Forgets c h c₁ ∧
      c.beginAlloc h draw d = .ok ({ c₁ with dropped.noLock := c₁.dropped.noLock + 1 }, none) := by
  have ht : c.TablesHold {p | p ∈ t.sites} := t.tablesHold hinj fun _ hp => hp
  obtain ⟨c₁, he⟩ := ht.evict_ok h
  refine ⟨c₁, he, t.midway.owned.forgets he, ?_⟩
  rw [Collector.beginAlloc_at_bound hd ha, he]
  rfl

end Collector

namespace Bench

/-! ### Captures run by the bench -/

mutual

/-- A step fires only events of the collector (allocations, frees and returns) or touches only
the host, and the capture scripts it queues do the same. -/
def CollectorStep.firesEvents : CollectorStep → Bool
  | .alloc .. | .allocEvent .. | .free _ | .freeEvent _ | .onReturn | .onReturnElsewhere => true
  | .hostSet .. | .hostKill _ | .hostFrames _ | .hostFailRegister _ | .hostFailUnregister _ => true
  | .getConfig | .show | .unreadable _ => true
  | .hostScript captures => CaptureScript.allFireEvents captures
  | .start | .stop | .flush | .configure _ | .setSampleRate _ | .setRetainRate _ | .setMaxAllocs _
  | .setMaxHeap _ | .setMethod _ | .relocate _ | .profile _ => false

/-- Every step fires only events. -/
def CollectorStep.allFireEvents : List CollectorStep → Bool
  | [] => true
  | s :: ss => s.firesEvents && CollectorStep.allFireEvents ss

/-- Every step of every capture script fires only events. -/
def CaptureScript.allFireEvents : List CaptureScript → Bool
  | [] => true
  | .mk steps _ _ _ :: cs => CollectorStep.allFireEvents steps && CaptureScript.allFireEvents cs

end

theorem CaptureScript.allFireEvents_append (cs cs' : List CaptureScript) :
    CaptureScript.allFireEvents (cs ++ cs') =
      (CaptureScript.allFireEvents cs && CaptureScript.allFireEvents cs') := by
  induction cs with
  | nil => rfl
  | cons e cs ih =>
    cases e
    simp only [List.cons_append, CaptureScript.allFireEvents, ih, Bool.and_assoc]

/-- A capture takes the first script queued: the rest stays queued, and the script taken fires
only events if every queued one does. -/
theorem ScriptedHost.beginCapture_fires {host host' : ScriptedHost} {m : CaptureMethod}
    {entry : Option CaptureScript} (hc : host.beginCapture m = (host', entry))
    (hs : CaptureScript.allFireEvents host.script = true) :
    CaptureScript.allFireEvents host'.script = true ∧
      ∀ e, entry = some e → CollectorStep.allFireEvents e.steps = true := by
  unfold ScriptedHost.beginCapture at hc
  cases hq : host.script with
  | nil =>
    simp only [hq] at hc
    cases hc
    exact ⟨hq ▸ hs, fun _ he => nomatch he⟩
  | cons e rest =>
    simp only [hq] at hc
    cases hc
    cases e
    rw [hq, CaptureScript.allFireEvents, Bool.and_eq_true] at hs
    exact ⟨hs.2, fun _ he => by cases he; exact hs.1⟩

namespace CollectorBench

variable {d : Nat} {b b' : CollectorBench}

/-- A return run by the bench is a return event, and leaves the host alone. -/
theorem onReturn_run (hr : b.onReturn = .ok b') :
    Nonempty (EventRun d b.collector b'.collector) ∧ b'.host = b.host := by
  obtain ⟨c, hc, hr⟩ := Except.ok_of_bind hr
  cases hr
  exact ⟨⟨.ret _ _ hc (.nil d c)⟩, rfl⟩

/-- A step that captures nothing and fires only events is a run of events, and the host keeps
queuing scripts that fire only events. -/
theorem simpleStep_run {s : CollectorStep} {r : CollectorReply} (hs : s.firesEvents = true)
    (hh : CaptureScript.allFireEvents b.host.script = true) (hrun : b.simpleStep d s = .ok (b', r)) :
    Nonempty (EventRun d b.collector b'.collector) ∧ CaptureScript.allFireEvents b'.host.script = true := by
  cases s with
  | free h | freeEvent h =>
    obtain ⟨c, hc, hrun⟩ := Except.ok_of_bind hrun
    cases hrun
    exact ⟨⟨.free h hc (.nil d c)⟩, hh⟩
  | onReturn =>
    obtain ⟨b₁, hb, hrun⟩ := Except.ok_of_bind hrun
    cases hrun
    obtain ⟨hr, hhost⟩ := onReturn_run hb
    exact ⟨hr, hhost ▸ hh⟩
  | onReturnElsewhere =>
    -- Away from the bench's thread the return is noted only between calls.
    by_cases hd : d = 0
    · simp only [simpleStep, hd, if_true] at hrun
      obtain ⟨b₁, hb, hrun⟩ := Except.ok_of_bind hrun
      cases hrun
      obtain ⟨hr, hhost⟩ := onReturn_run hb
      exact ⟨hd ▸ hr, hhost ▸ hh⟩
    · simp only [simpleStep, hd, if_false] at hrun
      cases hrun
      exact ⟨⟨.nil d _⟩, hh⟩
  | hostScript captures =>
    cases hrun
    simp only [CollectorStep.firesEvents] at hs
    exact ⟨⟨.nil d _⟩, by rw [CaptureScript.allFireEvents_append, hh, hs]; rfl⟩
  | alloc | allocEvent | profile | hostSet | hostKill | hostFrames | hostFailRegister
  | hostFailUnregister | getConfig | «show» | unreadable =>
    cases hrun
    exact ⟨⟨.nil d _⟩, hh⟩
  | start | stop | flush | configure | setSampleRate | setRetainRate | setMaxAllocs | setMaxHeap
  | setMethod | relocate => cases hs

/-- Ending an allocation once its stack is known is the collector's end of the allocation. -/
theorem finishAlloc_run {h size : UInt64} {frames : List Frame} {nested : List StepAnswer}
    {a : StepAnswer} (hf : b.finishAlloc h size frames nested = .ok (b', a)) :
    b.collector.finishAlloc h size frames = .ok b'.collector ∧ b'.host = b.host := by
  obtain ⟨c, hc, hf⟩ := Except.ok_of_bind hf
  cases hf
  exact ⟨hc, rfl⟩

/-- An allocation whose capture took a script ends as the script's steps, run one level deeper,
end: with a failure they pass on, with the script's failure, or with the script's stack. -/
theorem allocate_of_script {h size : UInt64} {b₁ : CollectorBench} {draw : UInt32} {c : Collector}
    {m : CaptureMethod} {host : ScriptedHost} {e : CaptureScript} (hdraw : b.draw = (b₁, draw))
    (hb : b₁.collector.beginAlloc h draw d = .ok (c, some m))
    (hcap : b₁.host.beginCapture m = (host, some e)) :
    b.allocate d h size =
      match runSteps (d + 1) e.propagate { collector := c, host, drawn := b₁.drawn, clock := b₁.clock }
          e.steps with
      | .error ab => .error ab
      | .ok (b, nested, some err) => .ok (b, .mk (.hostFailed err) b.status nested)
      | .ok (b, nested, none) =>
        match e.fail with
        | some msg => .ok (b, .mk (.hostFailed ⟨msg⟩) b.status nested)
        | none => b.finishAlloc h size (e.frames.getD b.host.frames) nested := by
  rw [allocate.eq_1, hdraw]
  dsimp only
  rw [hb]
  dsimp only
  exact hcap ▸ rfl

/-- **The bench's runs are runs of events.**  When every step run and every capture script
queued fires only events, a run of steps, one step and one allocation run by the bench with `d`
captures in progress are runs of events at depth `d`, an allocation being one call; the steps of
a capture are run one level deeper, and the host keeps queuing such scripts. -/
theorem runs_are_eventRuns :
    (∀ d p (b : CollectorBench) ss b' as f, CollectorStep.allFireEvents ss = true →
      CaptureScript.allFireEvents b.host.script = true → b.runSteps d p ss = .ok (b', as, f) →
      Nonempty (EventRun d b.collector b'.collector) ∧
        CaptureScript.allFireEvents b'.host.script = true) ∧
    (∀ d (b : CollectorBench) s b' a, s.firesEvents = true →
      CaptureScript.allFireEvents b.host.script = true → b.runStep d s = .ok (b', a) →
      Nonempty (EventRun d b.collector b'.collector) ∧
        CaptureScript.allFireEvents b'.host.script = true) ∧
    (∀ d (b : CollectorBench) h size b' a,
      CaptureScript.allFireEvents b.host.script = true → b.allocate d h size = .ok (b', a) →
      Nonempty (Collector.AllocCall d h b.collector b'.collector) ∧
        CaptureScript.allFireEvents b'.host.script = true) := by
  apply runSteps.mutual_induct
  case case1 =>
    intro d p b b' as f _ hh hrun
    rw [runSteps.eq_1] at hrun
    cases hrun
    exact ⟨⟨.nil d _⟩, hh⟩
  case case2 =>
    intro d p b s ss ih₂ ih₁ b' as f hss hh hrun
    rw [CollectorStep.allFireEvents, Bool.and_eq_true] at hss
    rw [runSteps.eq_2] at hrun
    obtain ⟨⟨b₁, a⟩, h₁, hrun⟩ := Except.ok_of_bind hrun
    obtain ⟨⟨r₁⟩, hh₁⟩ := ih₂ b₁ a hss.1 hh h₁
    dsimp only at hrun
    split at hrun
    · cases hrun
      exact ⟨⟨r₁⟩, hh₁⟩
    · obtain ⟨⟨b₂, as₂, f₂⟩, h₂, hrun⟩ := Except.ok_of_bind hrun
      cases hrun
      obtain ⟨⟨r₂⟩, hh₂⟩ := ih₁ b₁ b₂ as₂ f₂ hss.2 hh₁ h₂
      exact ⟨⟨r₁.append r₂⟩, hh₂⟩
  case case3 =>
    intro d b h size ih₃ b' a _ hh hrun
    rw [runStep.eq_1] at hrun
    obtain ⟨⟨call⟩, hh'⟩ := ih₃ b' a hh hrun
    exact ⟨⟨call.run⟩, hh'⟩
  case case4 =>
    intro d b h size ih₃ b' a _ hh hrun
    rw [runStep.eq_2] at hrun
    obtain ⟨⟨call⟩, hh'⟩ := ih₃ b' a hh hrun
    exact ⟨⟨call.run⟩, hh'⟩
  case case5 =>
    intro d b inner _ b' a hs
    cases hs
  case case6 =>
    intro d b s h₁ h₂ h₃ b' a hs hh hrun
    rw [runStep.eq_4 d b s h₁ h₂ h₃] at hrun
    obtain ⟨⟨b₁, r⟩, hr, hrun⟩ := Except.ok_of_bind hrun
    cases hrun
    exact simpleStep_run hs hh hr
  case case7 =>
    intro d b h size b₁ draw hdraw e hb b' a _ hrun
    rw [allocate.eq_1, hdraw] at hrun
    dsimp only at hrun
    rw [hb] at hrun
    cases hrun
  case case8 =>
    intro d b h size b₁ draw hdraw c hb b' a hh hrun
    rw [allocate.eq_1, hdraw] at hrun
    dsimp only at hrun
    rw [hb] at hrun
    cases hrun
    cases hdraw
    exact ⟨⟨.uncaptured _ hb⟩, hh⟩
  case case9 =>
    intro d b h size b₁ draw hdraw c m hb _ host hcap b' a hh hrun
    rw [allocate.eq_1, hdraw] at hrun
    dsimp only at hrun
    rw [hb] at hrun
    dsimp only at hrun
    rw [hcap] at hrun
    dsimp only at hrun
    obtain ⟨hf, hhost⟩ := finishAlloc_run hrun
    cases hdraw
    exact ⟨⟨.captured size _ m _ hb (.nil _ _) hf⟩, hhost ▸ (ScriptedHost.beginCapture_fires hcap hh).1⟩
  case case10 =>
    intro d b h size b₁ draw hdraw c m hb _ host b₂ e ab hnest hcap _ b' a _ hrun
    rw [allocate_of_script hdraw hb hcap, hnest] at hrun
    cases hrun
  case case11 =>
    intro d b h size b₁ draw hdraw c m hb _ host b₂ e b₃ nested err hnest hcap ih₁ b' a hh hrun
    rw [allocate_of_script hdraw hb hcap, hnest] at hrun
    cases hrun
    cases hdraw
    obtain ⟨hh₁, hsteps⟩ := ScriptedHost.beginCapture_fires hcap hh
    obtain ⟨⟨r⟩, hh₂⟩ := ih₁ _ _ _ (hsteps e rfl) hh₁ hnest
    exact ⟨⟨.failed _ m hb r⟩, hh₂⟩
  case case12 =>
    intro d b h size b₁ draw hdraw c m hb _ host b₂ e b₃ nested hnest msg hfail hcap ih₁ b' a hh hrun
    rw [allocate_of_script hdraw hb hcap, hnest] at hrun
    dsimp only at hrun
    rw [hfail] at hrun
    cases hrun
    cases hdraw
    obtain ⟨hh₁, hsteps⟩ := ScriptedHost.beginCapture_fires hcap hh
    obtain ⟨⟨r⟩, hh₂⟩ := ih₁ _ _ _ (hsteps e rfl) hh₁ hnest
    exact ⟨⟨.failed _ m hb r⟩, hh₂⟩
  case case13 =>
    intro d b h size b₁ draw hdraw c m hb _ host b₂ e b₃ nested hnest hfail hcap ih₁ b' a hh hrun
    rw [allocate_of_script hdraw hb hcap, hnest] at hrun
    dsimp only at hrun
    rw [hfail] at hrun
    dsimp only at hrun
    obtain ⟨hf, hhost⟩ := finishAlloc_run hrun
    cases hdraw
    obtain ⟨hh₁, hsteps⟩ := ScriptedHost.beginCapture_fires hcap hh
    obtain ⟨⟨r⟩, hh₂⟩ := ih₁ _ _ _ (hsteps e rfl) hh₁ hnest
    exact ⟨⟨.captured size _ m _ hb r hf⟩, hhost ▸ hh₂⟩

end CollectorBench

end Bench

/-- **Captures nest at most twice.**  A capture starts only with fewer than `maxCaptureDepth`
captures in progress, so the host never fires an event with more in progress.  An allocation run
by the bench, whose capture scripts fire only events, returns on every path, its own capture or a
nested one failing included, to the captures in progress it started with; the collectors with
none in progress are exactly those between calls.  At the bound an allocation whose draw the
sampling rate admits captures nothing: along a trail whose sites the location hash tells apart,
it forgets the object under its handle and counts one sample lost for the lock. -/
theorem captures_nest_at_most_twice :
    (∀ (c c₁ : Collector) h draw d m, c.beginAlloc h draw d = .ok (c₁, some m) →
      d < maxCaptureDepth) ∧
    (∀ d (c : Collector), Collector.Midway d c → d ≤ maxCaptureDepth) ∧
    (∀ d h size (b b' : Bench.CollectorBench) a,
      Bench.CaptureScript.allFireEvents b.host.script = true → Collector.Midway d b.collector →
      b.allocate d h size = .ok (b', a) → Collector.Midway d b'.collector) ∧
    (∀ c : Collector, Collector.Midway 0 c ↔ Reachable c) ∧
    ∀ d (c : Collector) (t : Collector.Trail d c) h draw,
      Set.InjOn (Function.uncurry locationId) {p | p ∈ t.sites} → maxCaptureDepth ≤ d →
      c.sampleRate.admits draw = true →
      ∃ c₁, c.evict h = .ok c₁ ∧ Collector.Forgets c h c₁ ∧
        c.beginAlloc h draw d = .ok ({ c₁ with dropped.noLock := c₁.dropped.noLock + 1 }, none) := by
  refine ⟨fun _ _ _ _ _ _ hb => Collector.depth_lt_of_beginAlloc hb, fun _ _ hm => hm.depth_le,
    ?_, fun _ => Collector.midway_zero_iff,
    fun _ _ t h _ hinj hd ha => t.beginAlloc_at_bound hinj hd h ha⟩
  intro d h size b b' a hh hm hrun
  obtain ⟨⟨call⟩, -⟩ := Bench.CollectorBench.runs_are_eventRuns.2.2 d b h size b' a hh hrun
  exact hm.allocCall call

/-- The allocation of `test_allocating_capture_depth_is_bounded`: a collector sampled handle
`1000001`, at two lines of one function, then began capturing the stacks of handles `1` and
`1000000`.  With two captures in progress, an allocation of `1000001` again captures nothing: it
evicts the entry left under that handle and counts a lost sample. -/
theorem allocation_at_bound_evicts_stale_entry :
    ∃ (c : Collector) (t : Collector.Trail maxCaptureDepth c),
      c.heap.get? 1000001 = some 0 ∧ Set.InjOn (Function.uncurry locationId) {p | p ∈ t.sites} ∧
      ∃ c₁, c.evict 1000001 = .ok c₁ ∧ Collector.Forgets c 1000001 c₁ ∧
        c.beginAlloc 1000001 0 maxCaptureDepth =
          .ok ({ c₁ with dropped.noLock := c₁.dropped.noLock + 1 }, none) := by
  let hist := History.events
    (@History.start _ _ (.ok ()) (.new Rate.always Rate.always .fast 8 8) (.ok ()) rfl)
    (.allocCaptured 1000001 16 0 .fast [{ functionId := 5, line := 3 }, { functionId := 5, line := 4 }]
      rfl (.nil _ _) rfl (.nil _ _))
  -- Both captures begin below the bound, on free handles and with room, and change nothing.
  let t : Collector.Trail maxCaptureDepth _ := .capture (.capture (.between hist)
      (@Collector.beginAlloc_of_room _ 1 0 0 (by decide +kernel) (by decide +kernel) (by decide)
        (by decide +kernel) (by decide +kernel)))
      (@Collector.beginAlloc_of_room _ 1000000 0 1 (by decide +kernel) (by decide +kernel) (by decide)
        (by decide +kernel) (by decide +kernel))
  -- The sampled frames are two sites of one function, with distinct location ids.
  have hinj : Set.InjOn (Function.uncurry locationId) {p | p ∈ t.sites} :=
    injOn_of_nodup_locationIds (by decide +kernel)
  exact ⟨_, t, by decide +kernel, hinj,
    captures_nest_at_most_twice.2.2.2.2 _ _ t 1000001 0 hinj (Nat.le_refl _) (by decide +kernel)⟩

/-- Over `collidingHistory`, two allocations of free handles begin capturing; with those two
captures in progress, forgetting the object under handle `2` lets go of the second record, whose
frame names the first function, which the tables no longer hold: the allocation aborts. -/
theorem allocation_at_bound_aborts_on_collision :
    ∃ t : Collector.Trail maxCaptureDepth collidingHistory.1,
      ¬Set.InjOn (Function.uncurry locationId) {p | p ∈ t.sites} ∧
        collidingHistory.1.sampleRate.admits 0 = true ∧
        ∃ e, collidingHistory.1.beginAlloc 2 0 maxCaptureDepth = .error e := by
  have ha : collidingHistory.1.sampleRate.admits 0 = true := by
    decide +kernel
  have hl : collidingHistory.1.ledger.isFull = false := by
    decide +kernel
  have hh : collidingHistory.1.heap.isFull = false := by
    decide +kernel
  have h₆ : collidingHistory.1.heap.get? 6 = none := by
    decide +kernel
  have h₅ : collidingHistory.1.heap.get? 5 = none := by
    decide +kernel
  -- Two allocations of free handles capture, and leave the collector as it was.
  refine ⟨.capture (.capture (.between collidingHistory.2)
      (Collector.beginAlloc_of_room h₆ ha (by decide) hl hh))
      (Collector.beginAlloc_of_room h₅ ha (by decide) hl hh), ?_, ha, ?_⟩
  · simp only [Collector.Trail.sites]
    exact collidingHistory_not_injOn
  apply Except.exists_error_of_toBool
  decide +kernel

end HeapSampler
