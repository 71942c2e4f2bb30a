import SurfaceReuse.Proofs.SingleOwner

set_option autoImplicit false

/-!
Completions are not lost. Where nothing panics and the caller keeps to what it was handed, no
submission is overtaken; so every one of them ends with the call of its hook, and the pending map
is the list of the hooks that are still to be called.
-/

namespace SurfaceReuse

variable {φ : Type}

/-- The caller and the surfaces behave, and nothing panics. -/
structure Smooth (past : List (Moment φ)) (m : Moment φ) : Prop where
  orderly : Orderly past m
  calm : m.Calm

/-- After it got its hook, the surface was settled. -/
def SettledSince (past : List (Moment φ)) (h : Hook) (serial : Nat) : Prop :=
  ∃ earlier m later, past = earlier ++ m :: later ∧ (h, serial) ∈ registered earlier ∧
    m.Settled serial

theorem SettledSince.append {past : List (Moment φ)} {h : Hook} {serial : Nat}
    (hs : SettledSince past h serial) (m : Moment φ) : SettledSince (past ++ [m]) h serial := by
  obtain ⟨earlier, m', later, rfl, hr, hset⟩ := hs
  exact ⟨earlier, m', later ++ [m], by simp, hr, hset⟩

namespace Life

variable [Allocator φ] {past : List (Moment φ)} {s : System φ}

theorem toOrderly (life : Life Smooth past s) : Life Orderly past s :=
  life.weaken fun _ _ h => h.orderly

theorem toCalm (life : Life Smooth past s) : Life (fun _ m => m.Calm) past s :=
  life.weaken fun _ _ h => h.calm

/-- While a hook is outstanding nobody else has a surface with the hook's id. -/
theorem eq_of_waiting (life : Life Smooth past s) (hids : Allocator.KeepsIds φ)
    (hfew : requestsMade past < UInt64.size) {h : Hook} {serial : Nat}
    (hr : (h, serial) ∈ registered past) (hw : s.desk.Waiting h serial) {x : Surface}
    (hx : x ∈ s.owned) (hx' : x.serial ∉ foreign past) (hid : x.id = h.id) :
    x.serial = serial := by
  obtain ⟨y, hy, rfl⟩ := System.mem_of_waiting hw
  have hpool : y ∈ s.calls.map Call.surface ++ s.pooled := by
    rw [System.pooled_eq]
    rcases List.mem_append.mp hy with hy | hy
    · exact List.mem_append_left _ hy
    · exact List.mem_append_right _ (List.mem_append_right _ hy)
  have hmine : y ∈ s.owned := s.owned_perm.mem_iff.mpr (List.mem_append_right _ hy)
  have hyid := (life.toOrderly.sameId hr).2 y.key (List.mem_map_of_mem hmine) rfl
  exact congrArg Surface.serial <| life.toOrderly.eq_of_id hids hfew hx hmine hx'
    (life.toOrderly.not_foreign hpool) (hid.trans hyid.symm)

theorem hook_of_booking (life : Life Smooth past s) {b b' : Booking} (hb : b ∈ s.desk.bookings)
    (hb' : b' ∈ s.desk.bookings) (he : b.serial = b'.serial) : b.hook = b'.hook := by
  obtain ⟨x, hc, hx⟩ := System.booking_mem hb
  obtain ⟨y, hc', hy⟩ := System.booking_mem hb'
  have hcalls := List.inj_on_of_nodup_map life.sound.calls_nodup hc hc'
    ((hx.trans he).trans hy.symm)
  injection hcalls

theorem not_overtaken (life : Life Smooth past s) (hids : Allocator.KeepsIds φ)
    (hfew : requestsMade past < UInt64.size)
    (hwait : ∀ h serial, Outstanding past h serial → s.desk.Waiting h serial) :
    ¬s.desk.Overtaken := by
  rintro ⟨b, rest, hb, hslot, hcalled⟩
  have hbm : b ∈ s.desk.bookings := hb ▸ List.mem_cons_self
  obtain ⟨h, serial, hout, hid⟩ := (life.toCalm.tracked_iff b.id).mp hslot
  obtain ⟨hr, hh⟩ := life.ledger.outstanding_iff.mp hout
  have hw := hwait h serial hout
  obtain ⟨x, hc, hx⟩ := System.booking_mem hbm
  have hcall : x ∈ s.calls.map Call.surface := List.mem_map_of_mem (f := Call.surface) hc
  have hmine := System.mem_owned_of_call hcall
  obtain ⟨k, hk, hkid, -⟩ := life.ledger.booked b hbm
  have hxid : x.id = h.id := by
    rw [hid, ← hkid]
    exact (life.toOrderly.sameId hk).2 x.key (List.mem_map_of_mem hmine) hx
  have heq := life.eq_of_waiting hids hfew hr hw hmine
    (life.toOrderly.not_foreign (List.mem_append_left _ hcall)) hxid
  rcases hw with hb' | ⟨-, hp⟩
  · exact hcalled h hh (life.hook_of_booking hb' hbm (heq.symm.trans hx))
  · obtain ⟨-, y, -, -, hy, hparked⟩ := System.parked_mem hp
    exact life.sound.call_apart hc hparked (heq.trans hy.symm)

/-- A submitted surface waits for the call of its hook, and is settled after it. -/
theorem fate (life : Life Smooth past s) (hids : Allocator.KeepsIds φ)
    (hfew : requestsMade past < UInt64.size) {h : Hook} {serial : Nat}
    (hr : (h, serial) ∈ registered past) :
    s.desk.Waiting h serial ∨ h ∉ s.desk.hooks ∧ SettledSince past h serial := by
  induction life generalizing h serial with
  | opened config hs ok => exact absurd hr List.not_mem_nil
  | @move past s life m stays lawful ih =>
    have hfew' := Nat.lt_of_le_of_lt (requestsMade_le_append past (s.moment m)) hfew
    have hs := life.desk_step m stays
    by_cases hnew : (s.moment m).registered? = some (h, serial)
    · exact .inl (hs.waiting hnew)
    have hr' := (mem_registered_append.mp hr).resolve_right hnew
    have hold := (Life.move life m stays lawful).ledger.old_hook hs hr hnew
    have hown : ∀ k ∈ s.desk.hooks, k.number = h.number → k = h := by
      intro k hk he
      obtain ⟨serial', hk'⟩ := life.ledger.taken k hk
      exact (life.ledger.once k serial' h serial hk' hr' he).1
    have hwait : ∀ k n, Outstanding past k n → s.desk.Waiting k n := by
      intro k n hout
      obtain ⟨hk, hkh⟩ := life.ledger.outstanding_iff.mp hout
      exact (ih hfew' hk).resolve_right fun hn => hn.1 hkh
    rcases ih hfew' hr' with hw | ⟨hn, hset⟩
    · rcases hw.step life.tied hown hs with hw | ⟨hn, hset⟩ | ⟨hloses, -⟩
      · exact .inl hw
      · exact .inr ⟨hn, past, s.moment m, [], rfl, hr', hset⟩
      · rcases hloses with hp | hp | hlate
        · exact absurd hp lawful.calm
        · exact absurd (life.toCalm.awaited.2.symm.trans hp) (by simp)
        · exact absurd hlate (life.not_overtaken hids hfew' hwait)
    · exact .inr ⟨fun hh => hn (hold hh), hset.append _⟩

theorem waits (life : Life Smooth past s) (hids : Allocator.KeepsIds φ)
    (hfew : requestsMade past < UInt64.size) {h : Hook} {serial : Nat}
    (hout : Outstanding past h serial) : s.desk.Waiting h serial := by
  obtain ⟨hr, hh⟩ := life.ledger.outstanding_iff.mp hout
  exact (life.fate hids hfew hr).resolve_right fun hn => hn.1 hh

end Life

end SurfaceReuse
