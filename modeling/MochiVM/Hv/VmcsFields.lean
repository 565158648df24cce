import MochiVM.Hv.BringUp

/-!
# The VMCS that `write_state` builds

The SDM (appendix B) numbers the fields of a VMCS by width, area and index;
`sdmFields` is that table and `hostSpec`, `guestSpec` say what each field of the
host and guest state is meant to hold. `write_state` misses it on every machine:
its encoding of the guest's SYSENTER_CS is not in the table, and its host
selector encodings are those of other registers (`hostSelectors_shifted`).
-/

namespace MochiVM.Hv

open MochiVM.Panic

/-! ## The table -/

/-- Bits 14:13 of an encoding. -/
inductive FieldWidth where
  | w16 | w64 | w32 | natural
deriving DecidableEq, Repr

/-- Bits 11:10 of an encoding. -/
inductive FieldArea where
  | control | readOnly | guest | host
deriving DecidableEq, Repr

def FieldWidth.code : FieldWidth → Nat
  | .w16 => 0
  | .w64 => 1
  | .w32 => 2
  | .natural => 3

def FieldArea.code : FieldArea → Nat
  | .control => 0
  | .readOnly => 1
  | .guest => 2
  | .host => 3

/-- The encoding of a field. -/
def encode (width : FieldWidth) (area : FieldArea) (index : Nat) : BitVec 32 :=
  BitVec.ofNat 32 (width.code * 2 ^ 13 + area.code * 2 ^ 10 + index * 2)

/-- The indices that appendix B assigns. -/
def sdmIndices : FieldWidth → FieldArea → List Nat
  | .w16, .control => List.range 5
  | .w16, .readOnly => []
  | .w16, .guest => List.range 11
  | .w16, .host => List.range 7
  | .w64, .control => List.range 35 ++ [37, 38]
  | .w64, .readOnly => [0]
  | .w64, .guest => List.range 13
  | .w64, .host => List.range 4
  | .w32, .control => List.range 19
  | .w32, .readOnly => List.range 8
  | .w32, .guest => List.range 22 ++ [23]
  | .w32, .host => [0]
  | .natural, .control => List.range 8
  | .natural, .readOnly => List.range 6
  | .natural, .guest => List.range 23
  | .natural, .host => List.range 15

/-- The encodings of one width; a 64-bit field has a second one, for its high
half. -/
def sdmFieldsOf (width : FieldWidth) : List (BitVec 32) :=
  [FieldArea.control, .readOnly, .guest, .host].flatMap fun area =>
    (sdmIndices width area).flatMap fun i =>
      if width = .w64 then [encode width area i, encode width area i + 1]
      else [encode width area i]

/-- The encodings of appendix B. -/
def sdmFields : List (BitVec 32) :=
  [FieldWidth.w16, .w64, .w32, .natural].flatMap sdmFieldsOf

set_option maxRecDepth 4000 in
theorem guestSysenterCs_not_mem : guestSysenterCs ∉ sdmFields := by decide

/-! ## What the fields are meant to hold -/

/-- The host state: each component's current value, or the one `write_state`
intends for it. Selectors are numbered ES, CS, SS, DS, FS, GS, TR. -/
def hostSpec (r : Regs) (trBase hostEntry hostStack : BitVec 64) :
    List (BitVec 32 × BitVec 64) :=
  [(encode .w16 .host 0, r.es.setWidth 64), (encode .w16 .host 1, r.cs.setWidth 64),
   (encode .w16 .host 2, r.ss.setWidth 64), (encode .w16 .host 3, r.ds.setWidth 64),
   (encode .w16 .host 4, r.fs.setWidth 64), (encode .w16 .host 5, r.gs.setWidth 64),
   (encode .w16 .host 6, r.tr.setWidth 64),
   (encode .w64 .host 1, r.msr ia32Efer),
   (encode .w32 .host 0, 0), -- SYSENTER_CS
   (encode .natural .host 0, r.cr0), (encode .natural .host 1, r.cr3),
   (encode .natural .host 2, r.cr4),
   (encode .natural .host 3, 0), (encode .natural .host 4, 0), -- FS and GS base
   (encode .natural .host 5, trBase),
   (encode .natural .host 6, r.gdtr.2), (encode .natural .host 7, r.idtr.2),
   (encode .natural .host 8, 0), (encode .natural .host 9, 0), -- SYSENTER_ESP and EIP
   (encode .natural .host 10, hostStack + 0x4000), (encode .natural .host 11, hostEntry)]

/-- The guest state that `write_state` names. Segments are numbered ES, CS, SS,
DS, FS, GS, LDTR, TR. -/
def guestSpec (r : Regs) (trBase guestCode guestStack : BitVec 64) :
    List (BitVec 32 × BitVec 64) :=
  [0x10, 0x08, 0x10, 0x10, 0x10, 0x10, 0, r.tr.setWidth 64].mapIdx
      (fun i v => (encode .w16 .guest i, v)) ++
  [(encode .w64 .guest 0, 0xFFFFFFFFFFFFFFFF), -- VMCS link pointer
   (encode .w64 .guest 3, r.msr ia32Efer)] ++
  [0xFFFFFFFF, 0xFFFFFFFF, 0xFFFFFFFF, 0xFFFFFFFF, 0xFFFFFFFF, 0xFFFFFFFF, 0, 0x67,
    r.gdtr.1.setWidth 64, r.idtr.1.setWidth 64].mapIdx
      (fun i v => (encode .w32 .guest i, v)) ++ -- limits
  [0xC093, 0xA09B, 0xC093, 0xC093, 0xC093, 0xC093, 0x10000, 0x8B].mapIdx
      (fun i v => (encode .w32 .guest (10 + i), v)) ++ -- access rights
  [(encode .w32 .guest 21, 0), -- SYSENTER_CS
   (encode .natural .guest 0, r.cr0), (encode .natural .guest 1, r.cr3),
   (encode .natural .guest 2, r.cr4)] ++
  [0, 0, 0, 0, 0, 0, 0, trBase, r.gdtr.2, r.idtr.2].mapIdx
      (fun i v => (encode .natural .guest (3 + i), v)) ++ -- bases
  [0x400, guestStack + 0x1000, guestCode, 0x2, 0, 0, 0].mapIdx
      (fun i v => (encode .natural .guest (13 + i), v)) -- DR7, RSP, RIP, RFLAGS, …

/-- `write_state` builds the VMCS the SDM describes. -/
structure VmcsAsDescribed (env : Env) (s : Machine) (hostStack guestCode guestStack : BitVec 64) :
    Prop where
  /-- It returns, and reading back gives every component its value. -/
  values : ∃ t, Returns (writeState env hostStack guestCode guestStack) s (.ok ⟨⟩) t ∧
    ∀ p ∈ hostSpec s.regs (trBaseOf s) env.hostEntry hostStack ++
      guestSpec s.regs (trBaseOf s) guestCode guestStack, t.vmx.fields p.1 = p.2
  /-- It writes no encoding outside the table. -/
  inTable : NewEvents (fun ev => ∀ f v, ev.insn = .vmwrite f v → f ∈ sdmFields) s
    (finalState (writeState env hostStack guestCode guestStack s))
  /-- It writes every host selector. -/
  selectors : ∀ i < 7, ¬ NewEvents (fun ev => ∀ v, ev.insn ≠ .vmwrite (encode .w16 .host i) v) s
    (finalState (writeState env hostStack guestCode guestStack s))

/-! ## The encoding outside the table -/

/-- A run of the list that returns has issued all of it. -/
theorem wroteAll_of_returns {env : Env} : ∀ {ws : List StateWrite} {s t : Machine},
    Returns (writeAll env ws) s ⟨⟩ t → t = s.wroteAll ws
  | [], _, _, h => ((returns_pure _ _).unique h).2.symm
  | w :: ws, s, t, h => by
    obtain ⟨_, u, hu, hrest⟩ := h.of_bind
    cases hon : s.vmx.on with
    | false =>
      -- outside VMX operation the first VMWRITE faults
      have hfault : Aborts (expect w.msg (vmwrite env w.field w.value)) s
          (.fault .invalidOpcode) s := (vmxInsn_faults hon).bind _
      exact (hu.not_aborts hfault).elim
    | true =>
      have hw := (expect_vmwrite env hon w).symm.trans hu
      split at hw
      · cases hw
        have ih := wroteAll_of_returns hrest
        exact ih
      · cases hw

theorem wroteAll_trace : ∀ (ws : List StateWrite) (s : Machine),
    ∃ new, (s.wroteAll ws).trace = s.trace ++ new ∧
      new.map Event.insn = ws.map fun w => .vmwrite w.field w.value
  | [], s => ⟨[], (List.append_nil _).symm, rfl⟩
  | w :: ws, s => by
    obtain ⟨new, hnew, hmap⟩ := wroteAll_trace ws (s.wrote w)
    refine ⟨⟨.vmwrite w.field w.value, s.regs, s.vmx⟩ :: new, ?_, ?_⟩
    · refine hnew.trans ?_
      rw [show (s.wrote w).trace = s.trace ++ [⟨.vmwrite w.field w.value, s.regs, s.vmx⟩] from rfl,
        List.append_assoc]
      rfl
    · rw [List.map_cons, List.map_cons, hmap]

/-- What `write_state` leaves when it returns. -/
theorem writeState_returns_wroteAll {env : Env} {s t : Machine}
    {hostStack guestCode guestStack : BitVec 64} {r : Except String PUnit}
    (h : Returns (writeState env hostStack guestCode guestStack) s r t) :
    t = s.wroteAll (writesOf env s hostStack guestCode guestStack) := by
  have hrun : Returns (writeAll env (writesOf env s hostStack guestCode guestStack) >>= fun _ =>
      pure (.ok ⟨⟩)) s r t := (writeState_eq env s hostStack guestCode guestStack).symm.trans h
  obtain ⟨_, u, hu, hpure⟩ := hrun.of_bind
  obtain rfl := ((returns_pure _ _).unique hpure).2
  exact wroteAll_of_returns hu

/-- Whenever `write_state` returns it has written to encoding 0x0820, which the
table does not have. -/
theorem writeState_leaves_table {env : Env} {s t : Machine}
    {hostStack guestCode guestStack : BitVec 64} {r : Except String PUnit}
    (h : Returns (writeState env hostStack guestCode guestStack) s r t) :
    ¬ NewEvents (fun ev => ∀ f v, ev.insn = .vmwrite f v → f ∈ sdmFields) s t := by
  rintro ⟨new, hnew, hall⟩
  obtain ⟨new', hnew', hmap⟩ := wroteAll_trace (writesOf env s hostStack guestCode guestStack) s
  rw [writeState_returns_wroteAll h, hnew'] at hnew
  obtain rfl := List.append_cancel_left hnew
  have hmem : StateWrite.field32 guestSysenterCs 0 ∈
      writesOf env s hostStack guestCode guestStack := by
    simp [writesOf, stateWrites, guestGeneralWrites]
  have hinsn := List.mem_map_of_mem (f := fun w : StateWrite => VmxInsn.vmwrite w.field w.value)
    hmem
  rw [← hmap] at hinsn
  obtain ⟨ev, hev, heq⟩ := List.mem_map.mp hinsn
  exact guestSysenterCs_not_mem (hall ev hev _ _ heq)

/-- **`write_state` never builds the VMCS the SDM describes.** -/
theorem writeState_not_asDescribed (env : Env) (s : Machine)
    (hostStack guestCode guestStack : BitVec 64) :
    ¬ VmcsAsDescribed env s hostStack guestCode guestStack := by
  intro h
  obtain ⟨t, ht, _⟩ := h.values
  have htable := h.inTable
  rw [show writeState env hostStack guestCode guestStack s = _ from ht] at htable
  exact writeState_leaves_table ht htable

/-! ## The host selectors -/

/-- After accepted VMWRITEs, a field holds what its last write left. -/
theorem wroteAll_fields {region : Addr} (f : BitVec 32) :
    ∀ (ws : List StateWrite) (s : Machine), s.vmx.current = some region →
      (s.wroteAll ws).vmx.fields f =
        ws.foldl (fun v w => if f = w.field then fitField w.field w.value else v) (s.vmx.fields f)
  | [], _, _ => rfl
  | w :: ws, s, hcur => by
    have hwrite : (s.wrote w).vmx.fields f =
        if f = w.field then fitField w.field w.value else s.vmx.fields f := by
      show (s.vmx.write w.field w.value).fields f = _
      simp only [Vmx.write, Vmx.setFields, Vmx.fields, hcur, if_true]
    rw [List.foldl_cons, ← hwrite]
    exact wroteAll_fields f ws (s.wrote w) hcur

theorem foldl_written {f : BitVec 32} {v : BitVec 64} :
    ∀ {ws : List StateWrite}, f ∉ ws.map (·.field) →
      ws.foldl (fun v w => if f = w.field then fitField w.field w.value else v) v = v
  | [], _ => rfl
  | w :: ws, h => by
    obtain ⟨hne, hrest⟩ := List.ne_and_not_mem_of_not_mem_cons h
    rw [List.foldl_cons, if_neg hne, foldl_written hrest]

theorem stateFields_nodup : stateFields.Nodup := by decide

/-- **Every write of `write_state` lands**: no later one undoes it. -/
theorem writeState_fields {env : Env} {s t : Machine} {region : Addr}
    {hostStack guestCode guestStack : BitVec 64} {r : Except String PUnit}
    (hcur : s.vmx.current = some region)
    (h : Returns (writeState env hostStack guestCode guestStack) s r t) {w : StateWrite}
    (hw : w ∈ writesOf env s hostStack guestCode guestStack) :
    t.vmx.fields w.field = fitField w.field w.value := by
  obtain ⟨ws, ws', hsplit⟩ := List.append_of_mem hw
  have hnodup := stateFields_nodup
  rw [← writesOf_fields env s hostStack guestCode guestStack, hsplit, List.map_append,
    List.map_cons] at hnodup
  have hlater : w.field ∉ ws'.map (·.field) :=
    (List.nodup_cons.mp (List.nodup_append.mp hnodup).2.1).1
  rw [writeState_returns_wroteAll h, wroteAll_fields _ _ _ hcur, hsplit, List.foldl_append,
    List.foldl_cons, if_pos rfl, foldl_written hlater]

/-- A field `write_state` does not write keeps its content. -/
theorem writeState_unwritten {env : Env} {s t : Machine} {region : Addr}
    {hostStack guestCode guestStack : BitVec 64} {r : Except String PUnit}
    (hcur : s.vmx.current = some region)
    (h : Returns (writeState env hostStack guestCode guestStack) s r t) {f : BitVec 32}
    (hf : f ∉ stateFields) : t.vmx.fields f = s.vmx.fields f := by
  rw [← writesOf_fields env s hostStack guestCode guestStack] at hf
  rw [writeState_returns_wroteAll h, wroteAll_fields _ _ _ hcur, foldl_written hf]

/-- **The host selectors are shifted**: after `write_state`, ES holds TR's, CS
holds FS's, SS holds GS's, DS holds SS's, FS holds DS's and GS holds ES's; TR is
not written. -/
theorem hostSelectors_shifted {env : Env} {s t : Machine} {region : Addr}
    {hostStack guestCode guestStack : BitVec 64} {r : Except String PUnit}
    (hcur : s.vmx.current = some region)
    (h : Returns (writeState env hostStack guestCode guestStack) s r t) :
    (List.range 7).map (fun i => t.vmx.fields (encode .w16 .host i)) =
      [s.regs.tr, s.regs.fs, s.regs.gs, s.regs.ss, s.regs.ds, s.regs.es].map (·.setWidth 64) ++
        [s.vmx.fields (encode .w16 .host 6)] := by
  have hsel : ∀ (n i : Nat) (v : BitVec 16), fieldBits (encode .w16 .host i) = 16 →
      (hostWrites s.regs (trBaseOf s) env.hostEntry hostStack)[n]? =
        some (.field32 (encode .w16 .host i) (v.setWidth 32)) →
      t.vmx.fields (encode .w16 .host i) = v.setWidth 64 := by
    intro n i v hbits hn
    have hfield := writeState_fields hcur h (List.mem_append_right _ (List.mem_of_getElem? hn))
    have hfit : ((v.setWidth 32).setWidth 64).setWidth 16 = v := by
      apply BitVec.eq_of_toNat_eq
      simp only [BitVec.toNat_setWidth]
      omega
    refine hfield.trans ?_
    show fitField (encode .w16 .host i) ((v.setWidth 32).setWidth 64) = _
    rw [fitField, hbits, hfit]
  have htr : t.vmx.fields (encode .w16 .host 6) = s.vmx.fields (encode .w16 .host 6) :=
    writeState_unwritten hcur h (by decide)
  -- the positions of the six writes in `hostWrites`
  have h₀ := hsel 13 0 s.regs.tr rfl rfl
  have h₁ := hsel 17 1 s.regs.fs rfl rfl
  have h₂ := hsel 18 2 s.regs.gs rfl rfl
  have h₃ := hsel 14 3 s.regs.ss rfl rfl
  have h₄ := hsel 15 4 s.regs.ds rfl rfl
  have h₅ := hsel 16 5 s.regs.es rfl rfl
  simp only [List.range, List.range.loop, List.map_cons, List.map_nil, List.cons_append,
    List.nil_append, h₀, h₁, h₂, h₃, h₄, h₅, htr]

/-- A machine in VMX operation, with a current VMCS, whose code segment is not
that of FS. -/
def vmxMachine : Machine :=
  (bootMachine.setRegs { bootMachine.regs with cs := 0x38, tr := 0x40 }).setVmx
    ⟨some 0x100000, some 0x104000, [0x104000], fun _ _ => 0⟩

/-- With every VMWRITE taking effect, the host's CS is FS's selector, here 0. -/
theorem writeState_shifts_cs :
    ¬ ∀ env s region hostStack guestCode guestStack, s.vmx.on = true →
      s.vmx.current = some region → (∀ n, ∀ f ∈ sdmFields, env.vmwriteOk n f = true) →
      VmcsAsDescribed env s hostStack guestCode guestStack := by
  intro h
  obtain ⟨t, ht, hvalues⟩ :=
    (h grantingEnv vmxMachine 0x104000 0 0 0 rfl rfl fun _ _ _ => rfl).values
  have hcs : t.vmx.fields (encode .w16 .host 1) = 0x38 :=
    hvalues (encode .w16 .host 1, 0x38) (List.mem_append_left _ (by simp [hostSpec, vmxMachine]))
  have hshifted := congrArg (·[1]?) (hostSelectors_shifted rfl ht)
  simp only [List.range, List.range.loop, List.map_cons, List.cons_append,
    List.getElem?_cons_succ, List.getElem?_cons_zero, hcs] at hshifted
  exact absurd hshifted (by decide)

end MochiVM.Hv
