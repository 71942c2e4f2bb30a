import SurfaceReuse.Proofs.Idle

set_option autoImplicit false

/-!
Requests to the device, as they are on record. One request spends an id and brings at most one
surface; a row of requests asks for one size after the other, and what can be used becomes idle in
the order in which it came.
-/

namespace SurfaceReuse

namespace BufferId

def later (id : BufferId) (n : Nat) : BufferId :=
  ⟨.ofNat (id.number.toNat + n)⟩

theorem later_toNat (id : BufferId) (n : Nat) :
    (id.later n).number.toNat = (id.number.toNat + n) % UInt64.size :=
  UInt64.toNat_ofNat'

theorem later_zero (id : BufferId) : id.later 0 = id := by
  cases id
  exact congrArg mk UInt64.ofNat_toNat

theorem later_later (id : BufferId) (m n : Nat) : (id.later m).later n = id.later (m + n) := by
  refine congrArg mk (UInt64.toNat_inj.mp ?_)
  rw [later_toNat, UInt64.toNat_ofNat', UInt64.toNat_ofNat']
  change _ % UInt64.size = (_ + (m + n)) % UInt64.size
  rw [Nat.mod_add_mod, Nat.add_assoc]

theorem later_one (id : BufferId) : id.later 1 = id.next :=
  congrArg mk (UInt64.toNat_inj.mp ((id.later_toNat 1).trans id.next_toNat.symm))

end BufferId

namespace Answer

/-- The features of the surface that was made, if it can be used. -/
def usable? : Answer → Option Features
  | .made features => if features.valid then some features else none
  | _ => none

def isMade : Answer → Bool
  | .made _ => true
  | _ => false

/-- What a request for a surface comes to, by the answer of the allocator. -/
def ending (size : Size) (serial : Nat) : Answer → Ending Surface
  | .refused => .failed (.creationFailed size)
  | .panicked => .panicked
  | .made features =>
    if features.valid then .ok ⟨features, serial⟩ else .failed (.invalidSurface size)

theorem usable_eq_some {a : Answer} {f : Features} (h : a.usable? = some f) :
    a = .made f ∧ f.valid = true := by
  cases a with
  | refused => exact absurd h (by simp [usable?])
  | panicked => exact absurd h (by simp [usable?])
  | made g =>
    obtain ⟨hv, hg⟩ := Option.ite_none_right_eq_some.mp h
    obtain rfl := Option.some.inj hg
    exact ⟨rfl, hv⟩

end Answer

/-- The answers to a row of requests, under the ids from `id` on. -/
def Allocator.answers {φ : Type} [Allocator φ] (a : φ) (id : BufferId) : List Size → List Answer
  | [] => []
  | size :: sizes =>
    (Allocator.answer a size id).1 :: answers (Allocator.answer a size id).2 id.next sizes

variable {φ : Type} [Allocator φ]

namespace Device

/-- The surface that a request brings, if it can be used. -/
def given (d : Device φ) (size : Size) (id : BufferId) : List Surface :=
  ((Allocator.answer d.allocator size id).1.usable?.map fun f => ⟨f, d.built + 1⟩).toList

/-- The device after a request. A surface that cannot be used is gone again. -/
def answered (d : Device φ) (size : Size) (id : BufferId) : Device φ :=
  { d with
    allocator := (Allocator.answer d.allocator size id).2
    built := d.built + if (Allocator.answer d.allocator size id).1.isMade then 1 else 0
    alive := (d.given size id).map Surface.serial ++ d.alive
    requests :=
      ⟨id, size, d.alive, (Allocator.answer d.allocator size id).1.outcome⟩ :: d.requests }

theorem given_built {d : Device φ} {size : Size} {id : BufferId} {x : Surface}
    (hx : x ∈ d.given size id) :
    x.serial = d.built + 1 ∧ (d.answered size id).built = x.serial := by
  obtain ⟨f, hf, rfl⟩ := Option.map_eq_some_iff.mp (Option.mem_toList.mp hx)
  obtain ⟨ha, -⟩ := Answer.usable_eq_some hf
  simp [answered, ha, Answer.isMade]

/-- The device `d` was asked for surfaces of these sizes, one after the other, under the ids from
    `id` on. It took up the `requests`, the usable ones among the surfaces that it made are `made`,
    and then it was `d'`. -/
structure Asked (d : Device φ) (id : BufferId) (sizes : List Size) (made : List Surface)
    (requests : List Request) (d' : Device φ) : Prop where
  features : made.map Surface.toFeatures =
    (Allocator.answers d.allocator id sizes).filterMap Answer.usable?
  fresh : ∀ x ∈ made, d.built < x.serial
  increasing : (made.map Surface.serial).Pairwise (· < ·)
  alive : d'.alive = (made.map Surface.serial).reverse ++ d.alive
  recorded : d'.requests = requests.reverse ++ d.requests
  ids : ∀ i r, requests[i]? = some r → r.id.number.toNat = (id.number.toNat + i) % UInt64.size
  inOrder : requests.map Request.size = sizes
  outcomes : requests.map Request.outcome =
    (Allocator.answers d.allocator id sizes).map Answer.outcome
  /-- At each request there are the surfaces from before, and those that the requests before it
      brought. -/
  existing : ∀ i r, requests[i]? = some r → ∃ earlier, earlier <+: made ∧
    d.Supply (sizes.take i) earlier ∧
    r.existing = (earlier.map Surface.serial).reverse ++ d.alive
  usage : d'.usage = d.usage

theorem asked_nothing (d : Device φ) (id : BufferId) : d.Asked id [] [] [] d where
  features := rfl
  fresh := fun _ hx => absurd hx List.not_mem_nil
  increasing := .nil
  alive := rfl
  recorded := rfl
  ids := fun _ _ hr => absurd hr (by simp)
  inOrder := rfl
  outcomes := rfl
  existing := fun _ _ hr => absurd hr (by simp)
  usage := rfl

theorem given_features (d : Device φ) (size : Size) (id : BufferId) :
    (d.given size id).map Surface.toFeatures =
      (Allocator.answer d.allocator size id).1.usable?.toList := by
  unfold given
  cases (Allocator.answer d.allocator size id).1.usable? <;> rfl

theorem given_reverse (d : Device φ) (size : Size) (id : BufferId) :
    ((d.given size id).map Surface.serial).reverse = (d.given size id).map Surface.serial := by
  unfold given
  cases (Allocator.answer d.allocator size id).1.usable? <;> rfl

theorem given_supply (d : Device φ) (size : Size) (id : BufferId) :
    d.Supply [size] (d.given size id) := by
  unfold given
  cases h : (Allocator.answer d.allocator size id).1.usable? with
  | none => exact .nothing _
  | some f =>
    obtain ⟨ha, hv⟩ := Answer.usable_eq_some h
    exact .made ⟨Nat.lt_succ_self _, hv, _, _, ha⟩ (.nothing [])

theorem built_le_answered (d : Device φ) (size : Size) (id : BufferId) :
    d.built ≤ (d.answered size id).built :=
  Nat.le_add_right _ _

theorem Asked.cons {d d' : Device φ} {id : BufferId} {size : Size} {sizes : List Size}
    {made : List Surface} {requests : List Request}
    (h : (d.answered size id).Asked id.next sizes made requests d') :
    d.Asked id (size :: sizes) (d.given size id ++ made)
      (⟨id, size, d.alive, (Allocator.answer d.allocator size id).1.outcome⟩ :: requests) d' where
  features := by
    rw [List.map_append, h.features, given_features, Allocator.answers, List.filterMap_cons]
    cases (Allocator.answer d.allocator size id).1.usable? <;> rfl
  fresh := by
    intro x hx
    rcases List.mem_append.mp hx with hx | hx
    · have hserial := (given_built hx).1
      omega
    · have hlater := h.fresh x hx
      have hle := d.built_le_answered size id
      omega
  increasing := by
    rw [List.map_append, List.pairwise_append]
    refine ⟨?_, h.increasing, ?_⟩
    · unfold given
      cases (Allocator.answer d.allocator size id).1.usable? <;> simp
    · intro n hn k hk
      obtain ⟨x, hx, rfl⟩ := List.mem_map.mp hn
      obtain ⟨y, hy, rfl⟩ := List.mem_map.mp hk
      have hlater := h.fresh y hy
      have hbuilt := (given_built hx).2
      omega
  alive := by
    rw [h.alive, List.map_append, List.reverse_append, given_reverse, List.append_assoc]
    rfl
  recorded := by
    rw [h.recorded, List.reverse_cons, List.append_assoc]
    rfl
  ids := by
    intro i r hr
    cases i with
    | zero =>
      obtain rfl := Option.some.inj hr
      exact (Nat.mod_eq_of_lt id.number.toNat_lt_size).symm
    | succ i =>
      rw [h.ids i r hr, BufferId.next_toNat, Nat.mod_add_mod, Nat.add_assoc, Nat.add_comm 1]
  inOrder := congrArg (size :: ·) h.inOrder
  outcomes := congrArg ((Allocator.answer d.allocator size id).1.outcome :: ·) h.outcomes
  existing := by
    intro i r hr
    cases i with
    | zero =>
      obtain rfl := Option.some.inj hr
      exact ⟨[], List.nil_prefix, .nothing _, rfl⟩
    | succ i =>
      obtain ⟨earlier, hearlier, hs, he⟩ := h.existing i r hr
      refine ⟨d.given size id ++ earlier, List.prefix_append_right_inj _ |>.mpr hearlier,
        (d.given_supply size id).append (hs.mono (d.built_le_answered size id)), ?_⟩
      rw [he, List.map_append, List.reverse_append, given_reverse, List.append_assoc]
      rfl
  usage := h.usage

theorem asked_one (d : Device φ) (size : Size) (id : BufferId) :
    d.Asked id [size] (d.given size id)
      [⟨id, size, d.alive, (Allocator.answer d.allocator size id).1.outcome⟩]
      (d.answered size id) := by
  rw [← List.append_nil (d.given size id)]
  exact (asked_nothing _ _).cons

end Device

/-- The pool after a number of requests that brought the surfaces `made`. -/
def Pool.replenished (p : Pool) (requests : Nat) (made : List Surface) : Pool :=
  { p with
    available := p.available ++ made
    nextId := p.nextId.later requests
    created := p.created + made.length }

theorem Pool.replenished_nothing (p : Pool) : p.replenished 0 [] = p := by
  unfold replenished
  rw [List.append_nil, BufferId.later_zero]
  rfl

theorem Pool.replenished_append (p : Pool) (m n : Nat) (made made' : List Surface) :
    (p.replenished m made).replenished n made' = p.replenished (m + n) (made ++ made') := by
  simp only [replenished, List.append_assoc, List.length_append, Nat.add_assoc,
    BufferId.later_later]

namespace Locked

theorem create_answered (l : Locked φ) (size : Size) :
    (l.create size).1 =
      (Allocator.answer l.device.allocator size l.pool.nextId).1.ending size
        (l.device.built + 1) := by
  rw [create_eq]
  unfold Device.request
  cases Allocator.answer l.device.allocator size l.pool.nextId with
  | mk given allocator =>
    cases given with
    | refused => rfl
    | panicked => rfl
    | made f =>
      cases hv : f.valid <;> simp [Answer.ending, Device.build, hv]

/-- A request spends an id, whatever comes of it. -/
theorem create_exact (l : Locked φ) (size : Size) :
    (l.create size).2.device = l.device.answered size l.pool.nextId ∧
    (l.create size).2.pool =
      { l.pool with
        nextId := l.pool.nextId.next
        created := l.pool.created + (l.device.given size l.pool.nextId).length } := by
  rw [create_eq]
  unfold requested Device.request Device.answered Device.given
  cases Allocator.answer l.device.allocator size l.pool.nextId with
  | mk answer allocator =>
    cases answer with
    | refused => exact ⟨rfl, rfl⟩
    | panicked => exact ⟨rfl, rfl⟩
    | made f =>
      cases hv : f.valid with
      | true => simp [Answer.usable?, Answer.isMade, Answer.outcome, Device.build, hv, log,
          Pool.countCreated]
      | false => simp [Answer.usable?, Answer.isMade, Answer.outcome, Device.build, hv, log,
          release, Device.release]

theorem create_given (l : Locked φ) (size : Size) :
    (l.create size).1.toList = l.device.given size l.pool.nextId := by
  rw [create_answered]
  unfold Device.given
  cases (Allocator.answer l.device.allocator size l.pool.nextId).1 with
  | refused => rfl
  | panicked => rfl
  | made f => cases hv : f.valid <;> simp [Answer.ending, Answer.usable?, Ending.toList, hv]

theorem create_calm {l : Locked φ} {size : Size}
    (calm : (Allocator.answer l.device.allocator size l.pool.nextId).1 ≠ .panicked) :
    (l.create size).1 ≠ .panicked := by
  rw [create_answered]
  cases ha : (Allocator.answer l.device.allocator size l.pool.nextId).1 with
  | refused => simp [Answer.ending]
  | panicked => exact absurd ha calm
  | made f => cases hv : f.valid <;> simp [Answer.ending, hv]

theorem replenish_exact (l : Locked φ) (size : Size) (note : PoolError → Size → Log.Event) :
    (l.replenish size note).2.device = l.device.answered size l.pool.nextId ∧
    (l.replenish size note).2.pool =
      l.pool.replenished 1 (l.device.given size l.pool.nextId) := by
  obtain ⟨hdevice, hpool⟩ := l.create_exact size
  have hgiven := l.create_given size
  rw [← BufferId.later_one] at hpool
  rw [replenish_eq]
  cases hc : (l.create size).1 with
  | ok x =>
    rw [hc] at hgiven
    refine ⟨hdevice, ?_⟩
    change (l.create size).2.pool.push x = _
    rw [hpool, ← hgiven]
    rfl
  | failed error =>
    rw [hc] at hgiven
    refine ⟨hdevice, ?_⟩
    change (l.create size).2.pool = _
    rw [hpool, ← hgiven]
    simp [Pool.replenished, Ending.toList]
  | panicked =>
    rw [hc] at hgiven
    refine ⟨hdevice, ?_⟩
    change (l.create size).2.pool = _
    rw [hpool, ← hgiven]
    simp [Pool.replenished, Ending.toList]

theorem replenish_calm {l : Locked φ} {size : Size}
    (calm : (Allocator.answer l.device.allocator size l.pool.nextId).1 ≠ .panicked)
    (note : PoolError → Size → Log.Event) : (l.replenish size note).1 = .ok () := by
  rw [replenish_eq]
  cases hc : (l.create size).1 with
  | panicked => exact absurd hc (create_calm calm)
  | ok x => rfl
  | failed error => rfl

/-- What a row of requests brings. It breaks off where the device panics. -/
theorem replenishAll_exact (l : Locked φ) (sizes : List Size) :
    ∃ done rest made requests, sizes = done ++ rest ∧
      (l.replenishAll sizes).2.pool = l.pool.replenished done.length made ∧
      l.device.Asked l.pool.nextId done made requests (l.replenishAll sizes).2.device ∧
      (.panicked ∉ Allocator.answers l.device.allocator l.pool.nextId sizes →
        rest = [] ∧ (l.replenishAll sizes).1 = .ok ()) := by
  induction sizes generalizing l with
  | nil =>
    exact ⟨[], [], [], [], rfl, l.pool.replenished_nothing.symm, Device.asked_nothing _ _,
      fun _ => ⟨rfl, rfl⟩⟩
  | cons size sizes ih =>
    obtain ⟨hdevice, hpool⟩ := l.replenish_exact size .resizeFailed
    have hid : (l.replenish size .resizeFailed).2.pool.nextId = l.pool.nextId.next := by
      rw [hpool]
      exact l.pool.nextId.later_one
    have hrest := ih (l.replenish size .resizeFailed).2
    rw [hdevice, hid] at hrest
    obtain ⟨done, rest, made, requests, hsizes, hpool', hasked, hcalm⟩ := hrest
    rw [replenishAll_cons]
    cases hone : (l.replenish size .resizeFailed).1.isPanic with
    | true =>
      have hasked := l.device.asked_one size l.pool.nextId
      rw [← hdevice] at hasked
      refine ⟨[size], sizes, _, _, rfl, hpool, hasked, fun calm => ?_⟩
      rw [Allocator.answers, List.mem_cons, not_or] at calm
      rw [replenish_calm (Ne.symm calm.1)] at hone
      exact absurd hone (by simp [Ending.isPanic])
    | false =>
      refine ⟨size :: done, rest, _, _, congrArg (size :: ·) hsizes, ?_, hasked.cons, ?_⟩
      · change ((l.replenish size .resizeFailed).2.replenishAll sizes).2.pool = _
        rw [hpool', hpool, Pool.replenished_append, List.length_cons, Nat.add_comm 1]
      · intro calm
        rw [Allocator.answers, List.mem_cons, not_or] at calm
        exact hcalm calm.2

end Locked

end SurfaceReuse
