import MochiVM.Hv.Guest

/-!
# Where a boot writes memory

Bring-up writes the revision identifiers of its two regions and the code of the
guest, and nothing else; an exit leaves the guest's memory as it was but for the
host stack. `boot_mem` says so of every boot, wherever it gets to.
-/

namespace MochiVM.Hv

open MochiVM.Panic MochiVM.Runs

/-- The memory that a boot of `s` has been left with: the firmware's, or what the
guest made of it up to its last exit. -/
def Stage.mem (s : Machine) : Stage → Addr → BitVec 8
  | .firmware | .panicked _ | .refused => s.mem
  | .guest es _ => (es.getLast?.map Exit.mem).getD s.mem

/-- Where the hypervisor has written to it. -/
def Stage.Writes (env : Env) (s : Machine) (a : Addr) : Stage → Prop
  | .firmware | .panicked _ | .refused | .guest [] _ => SetupWrites env s a
  | .guest (_ :: _) _ => Within (env.allocate (s.allocs + 2) 4).2 0x4000 a

/-- The handlers of its exits fit on the host stack. -/
def Stage.Fits : Stage → Prop
  | .firmware | .panicked _ | .refused => True
  | .guest es _ => ∀ e ∈ es, e.Fits

/-- **Where the exits write**: in the host stack. -/
theorem loop_mem {env : Env} {region base : Addr} {s : Machine} (hs : Launched s region)
    (hrsp : s.vmx.data region hostRsp = base + 0x4000) {es : List Exit} (hfits : ∀ e ∈ es, e.Fits)
    {t : LoopState} (h : run (exitStep env) (.start s) es = some t) {a : Addr}
    (ha : ¬ Within base 0x4000 a) :
    t.machine.mem a = ((es.getLast?.map Exit.mem).getD s.mem) a := by
  suffices hall : LoopInv env region s es t ∧
      t.machine.vmx.data region hostRsp = base + 0x4000 ∧ ((∀ e ∈ es, Exit.Fits e) →
        t.machine.mem a = ((es.getLast?.map Exit.mem).getD s.mem) a) from hall.2.2 hfits
  refine run_inv_history (I := fun es t => LoopInv env region s es t ∧
    t.machine.vmx.data region hostRsp = base + 0x4000 ∧ ((∀ e ∈ es, Exit.Fits e) →
      t.machine.mem a = ((es.getLast?.map Exit.mem).getD s.mem) a)) ?_
    ⟨loopInv_start hs, hrsp, fun _ => rfl⟩ h
  rintro es t e u ⟨hinv, hdata, -⟩ hstep
  have hinv' := exitStep_inv hinv hstep
  cases hmode : t.mode with
  | host | aborted => simp [exitStep, hmode] at hstep
  | guest =>
  have hlive := (hinv.guest hmode).1
  obtain ⟨hentry, hdata'⟩ := @turn_hostRsp env _ _ hlive e _ hdata
  have hmem := fun hfits => @turn_mem env _ _ _ hlive e hentry hfits a ha
  rw [exitStep_guest env hmode] at hstep
  generalize e.turn env t.machine = c at hdata' hmem hstep
  obtain rfl := Option.some.inj hstep
  refine ⟨hinv', hdata', fun hall => ?_⟩
  rw [List.getLast?_concat]
  exact hmem (hall e (List.mem_append_right _ List.mem_cons_self))

/-- **The footprint of a boot.** -/
theorem boot_mem {env : Env} {systemTable : BitVec 64} {s t : Machine} {stage : Stage}
    (hs : Fresh s) (h : Boot env systemTable s stage t) (hfits : stage.Fits) {a : Addr}
    (ha : ¬ stage.Writes env s a) : t.mem a = stage.mem s a := by
  have hinit := @efiMain_did env systemTable _ hs
  cases h with
  | returned hr =>
    obtain ⟨-, insns, -, hdid⟩ := (ends_of_returns hr).mp hinit
    exact hdid.mem a ha
  | panicked he hhandler =>
    obtain ⟨-, hflag, insns, -, hdid⟩ := (ends_of_aborts he).mp hinit
    obtain ⟨-, rfl⟩ := hhandler.unique (panicHandler_inactive hflag _)
    exact hdid.mem a ha
  | refused he =>
    obtain ⟨vmcs, -, insns, -, hdid⟩ := (ends_of_aborts he).mp hinit
    exact hdid.mem a ha
  | @guest t es u he hrun =>
    obtain ⟨-, -, -, insns, -, hdid⟩ := (ends_of_aborts he).mp hinit
    cases es with
    | nil =>
      cases hrun
      exact hdid.mem a ha
    | cons e es =>
      obtain ⟨v, hv, rfl⟩ := efiMain_launched hs he
      have hboot := hs.booted systemTable
      obtain ⟨region, base, hlaunched, hbase, hrsp⟩ := @setup_hostRsp env
        (s.booted systemTable).prepared v hboot.noneActive hboot.exitCount hv
      have hstack : ¬ Within base 0x4000 a := by
        change env.allocate (s.allocs + 2) 4 = _ at hbase
        change ¬ Within (env.allocate (s.allocs + 2) 4).2 0x4000 a at ha
        rwa [hbase] at ha
      rw [loop_mem (hlaunched.launching _ _) hrsp hfits hrun hstack, Stage.mem,
        List.getLast?_eq_some_getLast (List.cons_ne_nil e es)]
      rfl

/-- The guest's memory after five HLTs, all zero, off the host stack. -/
theorem boot_mem_fiveHlts : ∃ (mode : Mode) (t : Machine),
    Boot grantingEnv 0x7F000000 bootMachine (.guest fiveHlts mode) t ∧ t.mem 0x200000 = 0 := by
  obtain ⟨mode, t, h⟩ := boot_fiveHlts
  have hfits : (Stage.guest fiveHlts mode).Fits := by
    intro e he
    obtain rfl := List.eq_of_mem_replicate he
    exact show 64 ≤ 0x4000 - 17 * 8 by decide
  have haway : ¬ (Stage.guest fiveHlts mode).Writes grantingEnv bootMachine 0x200000 := by
    show ¬ ((0x200000 : Addr) - (0x100000 + 0x4000 * 2)).toNat < 0x4000
    decide
  exact ⟨mode, t, h, boot_mem bootMachine_fresh h hfits haway⟩

end MochiVM.Hv
