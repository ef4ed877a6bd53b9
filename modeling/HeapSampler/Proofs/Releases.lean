import HeapSampler.Proofs.Steps
import Mathlib.Logic.Relation

/-!
# Operations that only let go of records

Of all the operations of a collector, only the second half of an allocation makes a record.
Every other one changes the records it keeps without touching their backtraces (a size, a
handle), moves holds between the two containers, and lets go of records.
`Collector.Releases c c'` says that `c'` comes from `c` by such changes, and this file proves it
of each of those operations.  A property of the stored backtraces and the two tables is then kept
by all of them as soon as a single letting go keeps it.

## Main definitions

* `Collector.ReleaseStep`, `Collector.Releases`.

## Main results

* `Collector.beginAlloc_releases`, `Collector.onReturn_releases`, `Collector.relocate_releases`,
  `Collector.flush_releases`, `Collector.start_releases` — these operations only let go of
  records.
-/

namespace HeapSampler

namespace Collector

/-- One change that keeps the backtraces of the records: the store and both tables stay, one
record changes but keeps its backtrace, or one holder lets go of a record. -/
inductive ReleaseStep (c c' : Collector) : Prop
  /-- The store and the tables are as they were. -/
  | keep (hs : c'.store = c.store) (hl : c'.locations = c.locations) (ht : c'.strings = c.strings)
  /-- A record changes, but not its backtrace. -/
  | update (id : RecordId) (f : SampleRecord → SampleRecord)
      (hf : ∀ r, (f r).backtrace = r.backtrace) (hs : c'.store = c.store.update id f)
      (hl : c'.locations = c.locations) (ht : c'.strings = c.strings)
  /-- A holder lets go of a record. -/
  | release (id : RecordId) (h : c.release id = .ok c')

/-- `c'` comes from `c` by changes that keep the backtraces of the records. -/
def Releases : Collector → Collector → Prop := Relation.ReflTransGen ReleaseStep

namespace Releases

variable {c c₁ c₂ : Collector}

theorem refl (c : Collector) : Releases c c := Relation.ReflTransGen.refl

theorem trans (h₁ : Releases c c₁) (h₂ : Releases c₁ c₂) : Releases c c₂ :=
  Relation.ReflTransGen.trans h₁ h₂

/-- A change of the containers or the counters only. -/
theorem keep (hs : c₁.store = c.store) (hl : c₁.locations = c.locations)
    (ht : c₁.strings = c.strings) : Releases c c₁ :=
  .single (.keep hs hl ht)

theorem update (c : Collector) (id : RecordId) (f : SampleRecord → SampleRecord)
    (hf : ∀ r, (f r).backtrace = r.backtrace) : Releases c (c.updateRecord id f) :=
  .single (.update id f hf rfl rfl rfl)

/-- A change of the containers or the counters, then more. -/
theorem keep_trans (h : Releases c₁ c₂) (hs : c₁.store = c.store) (hl : c₁.locations = c.locations)
    (ht : c₁.strings = c.strings) : Releases c c₂ :=
  (keep hs hl ht).trans h

theorem release {id : RecordId} (h : c.release id = .ok c₁) : Releases c c₁ :=
  .single (.release id h)

end Releases

variable {c c' : Collector}

/-- A fold whose every step only lets go of records only lets go of records. -/
theorem foldlM_releases {α ε : Type} {f : Collector → α → Except ε Collector}
    (hf : ∀ {c c'} a, f c a = .ok c' → Releases c c') {l : List α} (h : l.foldlM f c = .ok c') :
    Releases c c' := by
  induction l generalizing c with
  | nil => cases h; exact .refl _
  | cons a l ih =>
    simp only [List.foldlM_cons, bind, Except.bind] at h
    cases ha : f c a with
    | error e => rw [ha] at h; cases h
    | ok c₁ =>
      rw [ha] at h
      exact (hf a ha).trans (ih h)

theorem releaseAll_releases {ids : List RecordId} (h : c.releaseAll ids = .ok c') : Releases c c' :=
  foldlM_releases (fun _ h => .release h) h

/-- Forgetting the entry of a handle: the entry goes, its record loses its handle, and the heap
index lets go of it. -/
theorem evictEntry_releases {h : UInt64} {id : RecordId}
    (hr : ({ c with heap := (c.heap.remove h).1 }.updateRecord id SampleRecord.clearHandle).release id
      = .ok c') : Releases c c' := by
  apply Releases.keep_trans ((Releases.update _ id SampleRecord.clearHandle fun _ => rfl).trans
    (.release hr)) <;> rfl

theorem evict_releases {h : UInt64} (he : c.evict h = .ok c') : Releases c c' := by
  rcases evict_eq_ok he with ⟨-, rfl⟩ | ⟨id, -, hr⟩
  · exact .refl _
  · exact evictEntry_releases hr

theorem beginAlloc_releases {h : UInt64} {draw : UInt32} {d : Nat} {m : Option CaptureMethod}
    (hb : c.beginAlloc h draw d = .ok (c', m)) : Releases c c' := by
  obtain ⟨c₀, he, hd⟩ := beginAlloc_eq_ok hb
  have e := sampleDecision_fst c₀ draw d
  rw [hd] at e
  dsimp only at e
  exact (evict_releases he).trans (.keep (by rw [e]) (by rw [e]) (by rw [e]))

theorem measure_releases {probe : UInt64 → Option UInt64} {id : RecordId}
    (hm : c.measure probe id = .ok c') : Releases c c' := by
  rcases measure_eq_ok hm with ⟨size, -, -, rfl⟩ | ⟨-, rfl⟩ | ⟨-, -, -, c₁, hrel, rfl⟩ | ⟨-, -, -, rfl⟩
  · exact .update _ _ (·.resolveSize size) fun _ => rfl
  · exact .refl _
  · apply Releases.keep_trans ((Releases.release hrel).trans
      (.update _ _ SampleRecord.clearHandle fun _ => rfl)) <;> rfl
  · exact .update _ _ SampleRecord.clearHandle fun _ => rfl

theorem thin_releases {id : RecordId} {draw : UInt32} (ht : c.thin id draw = .ok c') :
    Releases c c' := by
  rcases thin_eq_ok ht with ⟨-, rfl⟩ | ⟨-, -, hr⟩ | ⟨-, -, rfl⟩
  · exact .refl _
  · apply (Releases.release hr).keep_trans <;> rfl
  · exact .refl _

theorem settleAll_releases {probe : UInt64 → Option UInt64} {draws : Nat → UInt32} {i : Nat}
    {ids : List RecordId} (hs : settleAll probe draws c i ids = .ok c') : Releases c c' := by
  induction ids generalizing c i with
  | nil => cases hs; exact .refl _
  | cons id ids ih =>
    simp only [Collector.settleAll, bind, Except.bind, settle_eq] at hs
    cases hm : c.measure probe id with
    | error e => rw [hm] at hs; cases hs
    | ok c₁ =>
      rw [hm] at hs
      dsimp only at hs
      cases ht : c₁.thin id (draws i) with
      | error e => rw [ht] at hs; cases hs
      | ok c₂ =>
        rw [ht] at hs
        exact (measure_releases hm).trans ((thin_releases ht).trans (ih hs))

theorem onReturn_releases {probe : UInt64 → Option UInt64} {draws : Nat → UInt32}
    (hr : c.onReturn probe draws = .ok c') : Releases c c' := by
  rcases onReturn_eq_ok hr with ⟨-, rfl⟩ | ⟨-, -, c₁, hs, rfl⟩
  · exact .refl _
  · exact (settleAll_releases hs).trans (.keep rfl rfl rfl)

/-- The moved records take their new handles. -/
theorem moveHandles_releases (ms : List (UInt64 × RecordId)) (c : Collector) :
    Releases c (ms.foldl (fun c m => c.updateRecord m.2 (·.setHandle m.1)) c) := by
  induction ms generalizing c with
  | nil => exact .refl _
  | cons m ms ih => exact (Releases.update c m.2 (·.setHandle m.1) fun _ => rfl).trans (ih _)

/-- The displaced records lose their handles and the heap index lets go of them. -/
theorem dropAll_releases {ids : List RecordId}
    (hd : ids.foldlM (fun c id => (c.updateRecord id SampleRecord.clearHandle).release id) c = .ok c') :
    Releases c c' :=
  foldlM_releases (fun id hr => (Releases.update _ id SampleRecord.clearHandle fun _ => rfl).trans
    (.release hr)) hd

theorem relocate_releases {remap : UInt64 → UInt64} (hr : c.relocate remap = .ok c') :
    Releases c c' := by
  apply ((moveHandles_releases _ _).trans (dropAll_releases hr)).keep_trans <;> rfl

theorem sweep_releases {probe : UInt64 → Option UInt64} {l : List (UInt64 × RecordId)}
    (hs : l.foldlM (sweepEntry probe) c = .ok c') : Releases c c' := by
  refine foldlM_releases (fun e he => ?_) hs
  rcases sweepEntry_eq_ok he with ⟨size, -, rfl⟩ | ⟨-, -, hr⟩ | ⟨-, -, rfl⟩
  · exact .update _ _ (·.setCurrentSize size) fun _ => rfl
  · exact evictEntry_releases hr
  · exact .refl _

theorem flush_releases {probe : UInt64 → Option UInt64} {time : Int64}
    {r : Except SerializationError FlushReport} (hf : c.flush probe time = .ok (c', r)) :
    Releases c c' := by
  obtain ⟨c₁, hs, hr, -⟩ := flush_eq_ok hf
  apply ((sweep_releases hs).trans (releaseAll_releases hr)).keep_trans <;> rfl

theorem clear_releases (h : c.clear = .ok c') : Releases c c' := by
  obtain ⟨c₁, c₂, h₁, h₂, rfl⟩ := clear_eq_ok h
  have h₃ : Releases c₂ { c₂ with pending := 0, dropped := {} } := .keep rfl rfl rfl
  apply ((releaseAll_releases h₁).trans ((releaseAll_releases h₂).trans h₃)).keep_trans <;> rfl

theorem start_releases {hooks r : Except HostError Unit} (h : c.start hooks = .ok (c', r)) :
    Releases c c' := by
  rcases start_eq_ok h with ⟨-, rfl⟩ | ⟨-, c₁, hc, rfl | rfl⟩
  · exact .refl _
  · exact (clear_releases hc).trans (.keep rfl rfl rfl)
  · exact clear_releases hc

end Collector

end HeapSampler
