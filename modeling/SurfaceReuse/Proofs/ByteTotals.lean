import Mathlib.Data.List.Perm.Subperm
import SurfaceReuse.Proofs.Reports

set_option autoImplicit false

/-!
Byte totals. A total stops at the limit with every surface that is added, and once more when the
resource cache is added. All the same it comes out as the exact sum, cut off at the limit once: it
depends on no order, and nothing that is added makes it smaller.
-/

namespace SurfaceReuse

namespace Surface

theorem exactFootprint_perm {xs ys : List Surface} (h : xs.Perm ys) :
    exactFootprint xs = exactFootprint ys := by
  induction h with
  | nil => rfl
  | cons x _ ih => exact congrArg (x.footprint.count + ·) ih
  | swap x y xs => exact Nat.add_left_comm _ _ _
  | trans _ _ ih ih' => exact ih.trans ih'

theorem exactFootprint_sublist {xs ys : List Surface} (h : xs.Sublist ys) :
    exactFootprint xs ≤ exactFootprint ys := by
  induction h with
  | slnil => exact Nat.le_refl _
  | cons y _ ih => exact Nat.le_trans ih (Nat.le_add_left _ _)
  | cons_cons x _ ih => exact Nat.add_le_add_left ih _

theorem exactFootprint_subperm {xs ys : List Surface} (h : xs.Subperm ys) :
    exactFootprint xs ≤ exactFootprint ys := by
  obtain ⟨zs, hperm, hsub⟩ := h
  rw [← exactFootprint_perm hperm]
  exact exactFootprint_sublist hsub

/-- However often a total stops at the limit on its way, it ends where one cut puts it. -/
theorem count_totalFootprint (xs : List Surface) :
    (totalFootprint xs).count = min (exactFootprint xs) byteLimit := by
  rw [totalFootprint_eq, Bytes.count_clamp]

end Surface

/-- The cut of the surfaces' total is lost in the cut of the sum with the cache. -/
theorem Pool.Described.total {p : Pool} (h : p.Described) :
    p.lastReport.totalBytes.count =
      min (Surface.exactFootprint p.available + p.lastReport.cache.bytes.count) byteLimit := by
  unfold Stats.totalBytes
  rw [Bytes.count_add, h.cachedBytes]
  unfold Pool.cachedBytes
  rw [Surface.count_totalFootprint]
  omega

variable {φ : Type} [Allocator φ]

namespace System

variable {s : System φ} {o : OpenPool}

/-- The bytes that the pool answers, and the report that it makes, are exact up to the limit. -/
structure Weighs (s : System φ) (b : Bytes) (r : Stats) : Prop where
  asked : (s.step .cachedBytes).1 = .bytes b
  reported : (s.step .report).1 = .stats r
  bytes : b.count = min (Surface.exactFootprint s.available) byteLimit
  total : r.totalBytes.count =
    min (Surface.exactFootprint s.available + s.device.usage.bytes.count) byteLimit

theorem weighs (ho : s.current = some o) (hp : o.poisoned = false) :
    s.Weighs o.pool.cachedBytes (s.inside o).report.pool.lastReport where
  asked := by
    change s.inspect (fun p => .bytes p.cachedBytes) = _
    rw [inspect_eq ho, hp]
    rfl
  reported := congrArg Prod.fst (report_open ho hp)
  bytes := by
    rw [available_eq ho]
    exact Surface.count_totalFootprint _
  total := by
    rw [available_eq ho]
    exact (s.inside o).report_described.total

/-- Whichever move makes a report, the report is exact for the pool as the move leaves it. -/
theorem reports_total (ho : s.current = some o) (m : Move φ) (stays : m.staysOpen = true)
    {r : Stats} (hr : r ∈ (s.moment m).reports) :
    r.totalBytes.count = min (Surface.exactFootprint (s.step m).2.available +
      (s.step m).2.device.usage.bytes.count) byteLimit := by
  have hclosed : (s.moment m).before.Closes (s.moment m).after := closes_step ho m stays
  rcases hclosed.reports with hnone | ⟨o', ho', hone, hdescribed, hcache⟩
  · rw [hnone] at hr
    exact absurd hr List.not_mem_nil
  · rw [hone] at hr
    obtain rfl := List.mem_singleton.mp hr
    have hidle : (s.step m).2.available = o'.pool.available := available_eq ho'
    rw [hdescribed.total, hcache, hidle]
    rfl

end System

/-- The bytes that a pool answers are those of its idle surfaces, cut off at the limit, and the
    total of a report those with the cache's, cut off at the limit: that of the report asked for,
    and that of any report a move makes. On the way the total of every front part is exact in the
    same way. Two pools with the same idle surfaces in whatever order answer the same, and with more
    surfaces or more in the cache neither figure is smaller. -/
theorem byte_totals_exact {s : System φ} {o : OpenPool} (ho : s.current = some o)
    (hp : o.poisoned = false) :
    ∃ (b : Bytes) (r : Stats), s.Weighs b r ∧
      (∀ front back, s.available = front ++ back →
        (Surface.totalFootprint front).count = min (Surface.exactFootprint front) byteLimit ∧
          (Surface.totalFootprint front).count ≤ b.count) ∧
      (∀ m : Move φ, m.staysOpen = true → ∀ r' ∈ (s.moment m).reports,
        r'.totalBytes.count = min (Surface.exactFootprint (s.step m).2.available +
          (s.step m).2.device.usage.bytes.count) byteLimit) ∧
      ∀ (t : System φ) (q : OpenPool), t.current = some q → q.poisoned = false →
        ∃ (b' : Bytes) (r' : Stats), t.Weighs b' r' ∧
          (s.available.Perm t.available → b' = b) ∧
          (s.available.Subperm t.available →
            s.device.usage.bytes.count ≤ t.device.usage.bytes.count →
              b.count ≤ b'.count ∧ r.totalBytes.count ≤ r'.totalBytes.count) := by
  have hs := System.weighs ho hp
  refine ⟨_, _, hs, fun front back hsplit => ⟨Surface.count_totalFootprint front, ?_⟩,
    fun m stays r' hr => System.reports_total ho m stays hr, fun t q hq hq' => ?_⟩
  · have hfront : Surface.exactFootprint front ≤ Surface.exactFootprint s.available := by
      rw [hsplit]
      exact Surface.exactFootprint_sublist (List.sublist_append_left front back)
    rw [hs.bytes, Surface.count_totalFootprint]
    omega
  · have ht := System.weighs hq hq'
    refine ⟨_, _, ht, fun hperm => ?_, fun hmore hcache => ?_⟩
    · apply Bytes.ext
      rw [ht.bytes, hs.bytes, Surface.exactFootprint_perm hperm]
    · have hsum := Surface.exactFootprint_subperm hmore
      rw [hs.bytes, ht.bytes, hs.total, ht.total]
      omega

open Scenario in
/-- Two idle surfaces leave room below the limit. With a third one in between and more in the cache
    both figures stop at the limit. -/
theorem byte_totals_exact_of_saturation :
    ∃ (s t : System Faults) (o q : OpenPool) (b b' : Bytes) (r r' : Stats),
      s.current = some o ∧ o.poisoned = false ∧ t.current = some q ∧ q.poisoned = false ∧
      s.Weighs b r ∧ b.count = 9223372036854775813 ∧ r.totalBytes.count = 9223372036854775820 ∧
      t.Weighs b' r' ∧ b'.count = byteLimit ∧ r'.totalBytes.count = byteLimit ∧
      Surface.exactFootprint t.available = UInt64.size + 5 ∧
      b.count ≤ b'.count ∧ r.totalBytes.count ≤ r'.totalBytes.count := by
  let half : Bytes := .clamp 9223372036854775808
  let x : Surface := ⟨{ id := ⟨1⟩, size := ⟨8, 8⟩, allocation := some half }, 1⟩
  let y : Surface := ⟨{ id := ⟨2⟩, size := ⟨8, 8⟩, allocation := some half }, 2⟩
  let z : Surface := ⟨{ id := ⟨3⟩, size := ⟨8, 8⟩, allocation := some (.clamp 5) }, 3⟩
  let pool : List Surface → OpenPool := fun available =>
    { generation := 1, config := {}, pool := { capacity := 12, available } }
  let process : List Surface → Nat → System Faults := fun available n =>
    { current := some (pool available)
      device := { allocator := {}, usage := { bytes := .clamp n } } }
  obtain ⟨b, r, hs, -, -, hmore⟩ :=
    byte_totals_exact (s := process [z, x] 7) (o := pool [z, x]) rfl rfl
  obtain ⟨b', r', ht, -, hgrown⟩ := hmore (process [x, y, z] 8) (pool [x, y, z]) rfl rfl
  obtain ⟨hbytes, htotal⟩ := hgrown ⟨[x, z], .swap z x [], by decide⟩ (by decide)
  exact ⟨_, _, _, _, b, b', r, r', rfl, rfl, rfl, rfl, hs, hs.bytes.trans (by decide),
    hs.total.trans (by decide), ht, ht.bytes.trans (by decide), ht.total.trans (by decide),
    by decide, hbytes, htotal⟩

end SurfaceReuse
