import LibAmvp.Capabilities.Calls

/-!
# Stored domains

The functions that set a domain check the range that they are given, each in its own way.  A
range is well formed when its ends are in order and not negative, and its increment is positive
and leads from one end to the other.

Main results:

- Theorem {lit}`domainSound_iff`: for which arguments does a function have a defined outcome and
  store a well-formed range only?
-/

namespace LibAmvp

open Keyed

/-! ## Well-formed ranges -/

/-- The ends are in order and not negative, and the increment leads from one to the other. -/
def IsRange (min max increment : Int) : Prop :=
  0 ≤ min ∧ min ≤ max ∧ 0 < increment ∧ increment ∣ max - min

instance (min max increment : Int) : Decidable (IsRange min max increment) :=
  inferInstanceAs (Decidable (_ ∧ _))

/-- The range of a domain is well formed. -/
def Domain.WellFormed (d : Domain) : Prop := IsRange d.min d.max d.increment

/-- A domain that was given a range is well formed exactly when the range is. -/
@[simp]
theorem Domain.wellFormed_withRange (d : Domain) (min max increment : Int) :
    (d.withRange min max increment).WellFormed ↔ IsRange min max increment :=
  Iff.rfl

/-- A setter has a defined outcome at a state, and when it succeeds, the domain at a place of the
state is well formed. -/
def SoundAt {σ : Type} (place : Option (σ → Domain)) (op : Setter σ) (x : σ) : Prop :=
  op x ≠ .error .divisionByZero ∧ op x ≠ .error .overflow ∧
    ∀ x', op x = .ok (.success, x') → ∃ get ∈ place, (get x').WellFormed

section SoundAt

variable {σ υ : Type} {place : Option (σ → Domain)} {x : σ}

/-- A call that is refused is sound. -/
theorem soundAt_of_eq_ok {op : Setter σ} {rv : AmvpResult} {x' : σ} (hop : op x = .ok (rv, x'))
    (hrv : rv ≠ .success) : SoundAt place op x := by
  refine ⟨by rw [hop]; nofun, by rw [hop]; nofun, fun y h => ?_⟩
  rw [hop] at h
  cases h
  exact absurd rfl hrv

/-- So is a refusal in a setter. -/
theorem soundAt_refuse {rv : AmvpResult} (hrv : rv ≠ .success) : SoundAt place (refuse rv) x :=
  soundAt_of_eq_ok rfl hrv

/-- In particular one that answers that an argument is invalid. -/
@[simp]
theorem soundAt_invalidArg : SoundAt place (refuse .invalidArg) x ↔ True :=
  iff_true_intro (soundAt_refuse (by decide))

/-- A store is sound exactly when it leaves the domain well formed. -/
@[simp]
theorem soundAt_accept {get : σ → Domain} {f : σ → σ} :
    SoundAt (some get) (accept f) x ↔ (get (f x)).WellFormed := by
  constructor
  · rintro ⟨-, -, h⟩
    obtain ⟨_, hget, hwell⟩ := h (f x) rfl
    cases hget
    exact hwell
  · refine fun hwell => ⟨nofun, nofun, fun x' h => ?_⟩
    cases h
    exact ⟨get, rfl, hwell⟩

/-- A test is sound when each branch is under its condition. -/
@[simp]
theorem soundAt_ite {c : Prop} [Decidable c] {op op' : Setter σ} :
    SoundAt place (if c then op else op') x ↔
      (c → SoundAt place op x) ∧ (¬c → SoundAt place op' x) := by
  split <;> simp [*]

/-- A division by zero is not sound. -/
@[simp]
theorem soundAt_divisionByZero : ¬SoundAt place (Op.trap .divisionByZero) x :=
  fun h => h.1 rfl

/-- Nor is an overflow. -/
@[simp]
theorem soundAt_overflow : ¬SoundAt place (Op.trap .overflow) x :=
  fun h => h.2.1 rfl

/-- Looking at the state is sound when what follows at it is. -/
@[simp]
theorem soundAt_inspect {k : σ → Setter σ} :
    SoundAt place (Op.inspect k) x ↔ SoundAt place (k x) x :=
  Iff.rfl

/-- A change before a setter is sound when the setter is after it. -/
@[simp]
theorem soundAt_changed {f : σ → σ} {op : Setter σ} :
    SoundAt place (Op.changed f op) x ↔ SoundAt place op (f x) :=
  Iff.rfl

/-- A domain in a part of the state. -/
theorem soundAt_zoom (place : Option (υ → Domain)) (part : σ → υ) (set : υ → σ → σ)
    (op : Setter υ) (x : σ) (hset : ∀ u, part (set u x) = u) :
    SoundAt (place.map fun get x => get (part x)) (Op.zoom part set op) x ↔
      SoundAt place op (part x) := by
  unfold SoundAt Op.zoom
  cases hop : op (part x) with
  | error t => simp [Except.map]
  | ok out =>
      obtain ⟨rv, u⟩ := out
      simp [Except.map, hset]

end SoundAt

/-! ## Calls -/

/-- The place of the domain that a function sets, in the entry of a cipher. -/
structure DomainSlot where
  cipher : Cipher
  type : CapType
  domain : Option (type.member.Data → Domain)

/-- The place that {lit}`amvp_cap_sym_cipher_set_domain` sets. -/
def symDomain : SymCiphDomainParm → Option (SymCipherCap → Domain)
  | .ivlen => some SymCipherCap.ivLen
  | .ptlen => some SymCipherCap.payloadLen
  | .aadlen => some SymCipherCap.aadLen
  | .dulen => some SymCipherCap.duLen
  | .other _ => none

/-- The place that {lit}`amvp_cap_hash_set_domain` sets. -/
def hashDomain : HashParm → Option (HashCap → Domain)
  | .messageLen => some HashCap.msgLength
  | .outLength => some HashCap.outLen
  | _ => none

/-- The place that {lit}`amvp_cap_hmac_set_domain` sets. -/
def hmacDomain : HmacParm → Option (HmacCap → Domain)
  | .keylen => some HmacCap.keyLen
  | .maclen => some HmacCap.macLen
  | _ => none

/-- The place that {lit}`amvp_cap_cmac_set_domain` sets. -/
def cmacDomain : CmacParm → Option (CmacCap → Domain)
  | .msglen => some CmacCap.msgLen
  | .maclen => some CmacCap.macLen
  | _ => none

/-- The place that {lit}`amvp_cap_kmac_set_domain` sets. -/
def kmacDomain : KmacParm → Option (KmacCap → Domain)
  | .maclen => some KmacCap.macLen
  | .msglen => some KmacCap.msgLen
  | .keylen => some KmacCap.keyLen
  | _ => none

/-- The place that {lit}`amvp_cap_pbkdf_set_domain` sets. -/
def pbkdfDomain : PbkdfParm → Option (PbkdfCap → Domain)
  | .iterationCount => some PbkdfCap.iterationCountDomain
  | .keyLen => some PbkdfCap.keyLenDomain
  | .passwordLen => some PbkdfCap.passwordLenDomain
  | .saltLen => some PbkdfCap.saltLenDomain
  | _ => none

/-- The place that {lit}`amvp_cap_kdf135_ikev2_set_domain` sets. -/
def ikev2Domain : Kdf135Ikev2Parm → Option (Kdf135Ikev2Cap → Domain)
  | .initNonceLen => some Kdf135Ikev2Cap.initNonceLenDomain
  | .respondNonceLen => some Kdf135Ikev2Cap.respondNonceLenDomain
  | .dhSecretLen => some Kdf135Ikev2Cap.dhSecretLen
  | .keyMaterialLen => some Kdf135Ikev2Cap.keyMaterialLen
  | _ => none

/-- The place that {lit}`amvp_cap_kdf135_ikev1_set_domain` sets. -/
def ikev1Domain : Kdf135Ikev1Parm → Option (Kdf135Ikev1Cap → Domain)
  | .initNonceLen => some Kdf135Ikev1Cap.initNonceLenDomain
  | .respondNonceLen => some Kdf135Ikev1Cap.respondNonceLenDomain
  | .dhSecretLen => some Kdf135Ikev1Cap.dhSecretLen
  | .pskLen => some Kdf135Ikev1Cap.pskLen
  | _ => none

/-- The place that {lit}`amvp_cap_kdf135_x942_set_domain` sets. -/
def x942Domain : Kdf135X942Parm → Option (Kdf135X942Cap → Domain)
  | .keyLen => some Kdf135X942Cap.keyLen
  | .otherInfoLen => some Kdf135X942Cap.otherLen
  | .suppInfoLen => some Kdf135X942Cap.suppLen
  | .zzLen => some Kdf135X942Cap.zzLen
  | _ => none

/-- The lengths that a mode of the SP 800-108 functions supports. -/
def modeDomain : Kdf108Mode → Option (Kdf108Cap → Domain)
  | .counter => some fun cap => cap.counterMode.supportedLens
  | .feedback => some fun cap => cap.feedbackMode.supportedLens
  | .dpi => some fun cap => cap.dpiMode.supportedLens
  | .other _ => none

/-- The place that {lit}`amvp_cap_kdf108_set_domain` sets. -/
def kdf108Domain (mode : Kdf108Mode) : Kdf108Parm → Option (Kdf108Cap → Domain)
  | .supportedLen => modeDomain mode
  | _ => none

/-- The place that {lit}`amvp_cap_kda_set_domain` sets for the one-step variant. -/
def kdaOnestepDomain : KdaParm → Option (KdaOnestepCap → Domain)
  | .z => some KdaOnestepCap.z
  | _ => none

/-- The place that {lit}`amvp_cap_kda_set_domain` sets for HKDF. -/
def kdaHkdfDomain : KdaParm → Option (KdaHkdfCap → Domain)
  | .z => some KdaHkdfCap.z
  | .useHybridSecret => some KdaHkdfCap.auxSecretLen
  | _ => none

/-- The place that {lit}`amvp_cap_kda_twostep_set_domain` sets. -/
def kdaTwostepDomain (mode : Kdf108Mode) : KdaParm → Option (KdaTwostepCap → Domain)
  | .twostepSupportedLen => (modeDomain mode).map fun get cap => get cap.kdfParams
  | .z => some KdaTwostepCap.z
  | .useHybridSecret => some KdaTwostepCap.auxSecretLen
  | _ => none

/-- The place of the domain that a call sets, if its function sets domains. -/
def CapCall.domainSlot : CapCall → Option DomainSlot
  | symCipherSetDomain cipher parm _ _ _ => some ⟨cipher, .sym, symDomain parm⟩
  | hashSetDomain cipher parm _ _ _ => some ⟨cipher, .hash, hashDomain parm⟩
  | hmacSetDomain cipher parm _ _ _ => some ⟨cipher, .hmac, hmacDomain parm⟩
  | cmacSetDomain cipher parm _ _ _ => some ⟨cipher, .cmac, cmacDomain parm⟩
  | kmacSetDomain cipher parm _ _ _ => some ⟨cipher, .kmac, kmacDomain parm⟩
  | pbkdfSetDomain param _ _ _ => some ⟨.pbkdf, .pbkdf, pbkdfDomain param⟩
  | kdf135Ikev2SetDomain param _ _ _ => some ⟨.kdf135Ikev2, .kdf135Ikev2, ikev2Domain param⟩
  | kdf135Ikev1SetDomain param _ _ _ => some ⟨.kdf135Ikev1, .kdf135Ikev1, ikev1Domain param⟩
  | kdf135X942SetDomain param _ _ _ => some ⟨.kdf135X942, .kdf135X942, x942Domain param⟩
  | kdf108SetDomain mode param _ _ _ => some ⟨.kdf108, .kdf108, kdf108Domain mode param⟩
  | kdaSetDomain .kdaOnestep param _ _ _ =>
    some ⟨.kdaOnestep, .kdaOnestep, kdaOnestepDomain param⟩
  | kdaSetDomain cipher param _ _ _ => some ⟨cipher, .kdaHkdf, kdaHkdfDomain param⟩
  | kdaTwostepSetDomain param _ _ _ kdfMode =>
    some ⟨.kdaTwostep, .kdaTwostep, kdaTwostepDomain kdfMode param⟩
  | _ => none

/-- A call has a defined outcome, and when it succeeds, the domain that it has set is well
formed. -/
structure CapCall.DomainSound (c : CapCall) (s : Caps) : Prop where
  divides : c.exec s ≠ .error (.trap .divisionByZero)
  inRange : c.exec s ≠ .error (.trap .overflow)
  stored : ∀ s', c.exec s = .ok (.success, s') → ∃ slot ∈ c.domainSlot, ∃ get ∈ slot.domain,
    ∃ x, s'.content slot.cipher slot.type.member = some x ∧ (get x).WellFormed

/-! ## The arguments for which the functions are sound -/

/-- The bounds of the ranges that {lit}`amvp_cap_hmac_set_domain` stores. -/
def hmacBounds : HmacParm → Option (Int × Int)
  | .keylen => some (hmacKeyBitMin, hmacKeyBitMax)
  | .maclen => some (hmacMacBitMin, hmacMacBitMax)
  | _ => none

/-- The bounds of the ranges that {lit}`amvp_cap_cmac_set_domain` stores. -/
def cmacBounds : CmacParm → Option (Int × Int)
  | .msglen => some (cmacMsglenMin, cmacMsglenMax)
  | .maclen => some (cmacMaclenMin, cmacMaclenMax)
  | _ => none

/-- The bounds of the ranges that {lit}`amvp_cap_pbkdf_set_domain` stores. -/
def pbkdfBounds : PbkdfParm → Option (Int × Int)
  | .iterationCount => some (pbkdfIterationMin, pbkdfIterationMax)
  | .keyLen => some (pbkdfKeyBitMin, pbkdfKeyBitMax)
  | .passwordLen => some (pbkdfPassLenMin, pbkdfPassLenMax)
  | .saltLen => some (pbkdfSaltLenBitMin, pbkdfSaltLenBitMax)
  | _ => none

/-- The bounds of the ranges that {lit}`amvp_cap_kdf135_ikev2_set_domain` stores. -/
def ikev2Bounds : Kdf135Ikev2Parm → Option (Int × Int)
  | .initNonceLen => some (kdf135Ikev2InitNonceBitMin, kdf135Ikev2InitNonceBitMax)
  | .respondNonceLen => some (kdf135Ikev2RespNonceBitMin, kdf135Ikev2RespNonceBitMax)
  | .dhSecretLen => some (kdf135Ikev2DhSharedSecretBitMin, kdf135Ikev2DhSharedSecretBitMax)
  | .keyMaterialLen => some (kdf135Ikev2DkeyMaterialBitMin, kdf135Ikev2DkeyMaterialBitMax)
  | _ => none

/-- The bounds of the ranges that {lit}`amvp_cap_kdf135_ikev1_set_domain` stores. -/
def ikev1Bounds : Kdf135Ikev1Parm → Option (Int × Int)
  | .initNonceLen => some (kdf135Ikev1InitNonceBitMin, kdf135Ikev1InitNonceBitMax)
  | .respondNonceLen => some (kdf135Ikev1RespNonceBitMin, kdf135Ikev1RespNonceBitMax)
  | .dhSecretLen => some (kdf135Ikev1DhSharedSecretBitMin, kdf135Ikev1DhSharedSecretBitMax)
  | .pskLen => some (kdf135Ikev1PskBitMin, kdf135Ikev1PskBitMax)
  | _ => none

/-- The bounds of the ranges that {lit}`amvp_cap_kdf135_x942_set_domain` stores. -/
def x942Bounds : Kdf135X942Parm → Option (Int × Int)
  | .keyLen | .zzLen => some (1, 4096)
  | .otherInfoLen | .suppInfoLen => some (0, 4096)
  | _ => none

/-- The bounds of the secrets that the functions for key derivation in key agreement store. -/
def kdaBounds (cipher : Cipher) : KdaParm → Option (Int × Int)
  | .z => some (224, 65536)
  | .useHybridSecret => if cipher = .kdaOnestep then none else some (112, 65536)
  | _ => none

/-- A range within bounds, if there are any, whose increment is a multiple of a step, is well
formed. -/
def RangeWithin (bounds : Option (Int × Int)) (step min max increment : Int) : Prop :=
  ∀ b ∈ bounds, b.1 ≤ min → max ≤ b.2 → increment % step = 0 → IsRange min max increment

/-- The arguments for which a function that sets a domain is sound.  The ranges that the function
refuses by itself are among them. -/
def CapCall.DomainCondition : CapCall → Prop
  | hashSetDomain cipher .messageLen min max increment =>
    cipher.isSha → hashMsgBitMin ≤ min → max ≤ hashMsgBitMax → 0 < increment →
      min % increment = 0 → max % increment = 0 → min ≤ max
  | hashSetDomain cipher .outLength min max increment =>
    cipher.isShake → hashXofMdBitMin ≤ min → max ≤ hashXofMdBitMax →
      increment + min ≤ intMax ∧ (increment + min ≤ hashXofMdBitMax → 0 < increment →
        min % increment = 0 → max % increment = 0 → min ≤ max)
  | hmacSetDomain _ parm min max increment =>
    RangeWithin (hmacBounds parm) 8 min max increment
  | cmacSetDomain _ parm min max increment =>
    RangeWithin (cmacBounds parm) 8 min max increment
  | kmacSetDomain _ _ min max increment => 0 ≤ min → min ≤ max → increment ≠ 0
  | pbkdfSetDomain param min max increment =>
    min ≤ max → 0 < increment → RangeWithin (pbkdfBounds param) 1 min max increment
  | kdf135Ikev2SetDomain param min max increment =>
    RangeWithin (ikev2Bounds param) 1 min max increment
  | kdf135Ikev1SetDomain param min max increment =>
    RangeWithin (ikev1Bounds param) 1 min max increment
  | kdf135X942SetDomain param min max increment =>
    RangeWithin (x942Bounds param) 8 min max increment
  | kdf108SetDomain mode .supportedLen min max increment =>
    (modeDomain mode).isSome → min ≠ 0 → max ≤ kdf108KeyinBitMax → IsRange min max increment
  | kdaSetDomain cipher param min max increment =>
    cipher = .kdaOnestep ∨ cipher = .kdaHkdf →
      RangeWithin (kdaBounds cipher param) 8 min max increment
  | kdaTwostepSetDomain .twostepSupportedLen min max increment kdfMode =>
    (modeDomain kdfMode).isSome → increment ≠ 0 → IsRange min max increment
  | kdaTwostepSetDomain param min max increment _ =>
    RangeWithin (kdaBounds .kdaTwostep param) 8 min max increment
  | _ => True

/-- A context with one entry. -/
def Caps.single (cipher : Cipher) (type : CapType) (cap : type.member.Data) : Caps where
  capsList := [{ cipher := cipher, capType := type, cap := cap, cryptoHandler := ⟨0⟩ }]

/-- A setter on the content of an entry: its traps, and what it leaves when it succeeds. -/
theorem run_member_cases (cipher : Cipher) {m : Member} (op : Setter m.Data) (s : Caps) :
    (∀ t, (CapAction.atEntry cipher (.member m (uncounted op))).run s = .error (.trap t) →
      ∃ x, op x = .error t) ∧
    ∀ s', (CapAction.atEntry cipher (.member m (uncounted op))).run s = .ok (.success, s') →
      ∃ x x', op x = .ok (.success, x') ∧ s'.content cipher m = some x' := by
  simp only [CapAction.run]
  cases hlocate : s.locate cipher with
  | none => exact ⟨fun _ h => (by cases h), fun _ h => by cases h⟩
  | some e =>
      by_cases hm : e.capType.member = m
      · subst hm
        simp only [EntryAction.run, viaMember, uncounted, Op.zoom, dite_true]
        cases hop : op e.cap with
        | error t => exact ⟨fun t' h => ⟨e.cap, hop.trans (by cases h; rfl)⟩, fun _ h => by cases h⟩
        | ok out =>
            obtain ⟨rv, x'⟩ := out
            refine ⟨fun _ h => (by cases h), fun s' h => ?_⟩
            cases h
            refine ⟨e.cap, x', hop, ?_⟩
            have hcipher : e.cipher = cipher := Caps.locate_cipher hlocate
            simp only [Caps.content, Caps.locate]
            rw [find?_setFirst hlocate (by simp [hcipher])]
            simp
      · have hne : ¬m = e.capType.member := fun h => hm h.symm
        simp only [EntryAction.run, viaMember, hne, dite_false]
        exact ⟨fun _ h => (by cases h), fun _ h => by cases h⟩

/-- A setter on the content of the only entry. -/
theorem run_member_single {cipher : Cipher} {type : CapType} {op : Setter type.member.Data}
    (x : type.member.Data) :
    (CapAction.atEntry cipher (.member type.member (uncounted op))).run (.single cipher type x) =
      match op x with
      | .error t => .error (.trap t)
      | .ok (rv, x') => .ok (rv, .single cipher type x') := by
  have hlocate : (Caps.single cipher type x).locate cipher =
      some { cipher := cipher, capType := type, cap := x, cryptoHandler := ⟨0⟩ } := by
    simp [Caps.locate, Caps.single]
  simp only [CapAction.run, hlocate, EntryAction.run, viaMember, uncounted, Op.zoom, dite_true]
  cases hop : op x with
  | error t => rfl
  | ok out => simp [Except.map, Caps.single, setFirst]

/-- The content of the one entry of a list is found under its cipher. -/
theorem content_single {cipher : Cipher} {type : CapType} (x : type.member.Data) :
    (Caps.single cipher type x).content cipher type.member = some x := by
  simp [Caps.content, Caps.locate, Caps.single]

namespace CapCall

variable {c : CapCall} {cipher : Cipher}

/-- A call that is refused is sound, whatever it did. -/
theorem domainSound_of_exec {s s₁ : Caps} {rv : AmvpResult} (hexec : c.exec s = .ok (rv, s₁))
    (hrv : rv ≠ .success) : c.DomainSound s := by
  refine ⟨by rw [hexec]; nofun, by rw [hexec]; nofun, fun s' h => ?_⟩
  rw [hexec] at h
  cases h
  exact absurd rfl hrv

/-- An action that refuses at once is sound. -/
theorem domainSound_of_refuse {rv : AmvpResult} (haction : c.action = .refuse rv)
    (hrv : rv ≠ .success) (s : Caps) : c.DomainSound s :=
  domainSound_of_exec (by rw [exec, haction]; rfl) hrv

/-- So is one that refuses after the lookup. -/
theorem domainSound_of_atEntry_refuse {rv : AmvpResult}
    (haction : c.action = .atEntry cipher (.refuse rv)) (hrv : rv ≠ .success) (s : Caps) :
    c.DomainSound s := by
  cases hlocate : s.locate cipher with
  | none =>
      have hexec : c.exec s = .ok (.noCap, s) := by
        simp only [exec, haction, CapAction.run, hlocate]
      exact domainSound_of_exec hexec (by decide)
  | some e =>
      have hexec : c.exec s = .ok (rv, {
          capsList := setFirst (fun e => e.cipher == cipher) e s.capsList
          vsCount := s.vsCount }) := by
        simp only [exec, haction, CapAction.run, hlocate]
        rfl
      exact domainSound_of_exec hexec hrv

/-- A call that sets a domain through the setter of a member is sound everywhere exactly when
the setter is. -/
theorem domainSound_member_iff {type : CapType} {op : Setter type.member.Data}
    {place : Option (type.member.Data → Domain)}
    (haction : c.action = .atEntry cipher (.member type.member (uncounted op)))
    (hslot : c.domainSlot = some ⟨cipher, type, place⟩) :
    (∀ s, c.DomainSound s) ↔ ∀ x, SoundAt place op x := by
  constructor
  · intro h x
    obtain ⟨hdivides, hrange, hstored⟩ := h (.single cipher type x)
    rw [exec, haction, run_member_single] at hdivides hrange
    simp only [exec, haction, run_member_single, hslot] at hstored
    refine ⟨fun hop => hdivides (by rw [hop]), fun hop => hrange (by rw [hop]), fun x' hop => ?_⟩
    rw [hop] at hstored
    obtain ⟨_, hmem, get, hget, y, hcontent, hwell⟩ := hstored _ rfl
    cases hmem
    rw [content_single] at hcontent
    cases hcontent
    exact ⟨get, hget, hwell⟩
  · intro h s
    obtain ⟨htrap, hok⟩ := run_member_cases cipher op s
    refine ⟨fun hexec => ?_, fun hexec => ?_, fun s' hexec => ?_⟩ <;> rw [exec, haction] at hexec
    · obtain ⟨x, hx⟩ := htrap _ hexec
      exact (h x).1 hx
    · obtain ⟨x, hx⟩ := htrap _ hexec
      exact (h x).2.1 hx
    · obtain ⟨x, x', hx, hcontent⟩ := hok s' hexec
      obtain ⟨get, hget, hwell⟩ := (h x).2.2 x' hx
      exact ⟨_, hslot, get, hget, x', hcontent, hwell⟩

/-! ## The functions one by one -/

/-- The domains of a symmetric cipher are always well formed. -/
theorem symCipherSetDomain_sound (cipher : Cipher) (parm : SymCiphDomainParm)
    (min max increment : Int) (s : Caps) :
    (symCipherSetDomain cipher parm min max increment).DomainSound s := by
  by_cases hsym : cipher.isSym
  · have hrange : validateSymCipherDomainValue cipher parm min max increment = .success →
        IsRange min max increment := by
      unfold validateSymCipherDomainValue
      split_ifs with hends hstep
      · nofun
      · nofun
      · exact fun _ => ⟨by omega, by omega, by omega, Int.dvd_of_emod_eq_zero (by omega)⟩
    have haction : (symCipherSetDomain cipher parm min max increment).action =
        .atEntry cipher (.member CapType.sym.member
          (uncounted (LibAmvp.symCipherSetDomain cipher parm min max increment))) := if_pos hsym
    refine (domainSound_member_iff haction rfl).mpr ?_ s
    change ∀ x : SymCipherCap, SoundAt (symDomain parm)
      (LibAmvp.symCipherSetDomain cipher parm min max increment) x
    cases parm <;> simp +contextual [LibAmvp.symCipherSetDomain, symDomain, hrange]
  · have haction : (symCipherSetDomain cipher parm min max increment).action =
        .refuse .invalidArg := if_neg hsym
    exact domainSound_of_refuse haction (by decide) s

/-- A range of steps that both ends are on. -/
theorem isRange_iff_of_dvd {min max increment : Int} (hmin : 0 ≤ min) (hpos : 0 < increment)
    (hdvd : increment ∣ min) (hdvd' : increment ∣ max) :
    IsRange min max increment ↔ min ≤ max :=
  ⟨fun h => h.2.1, fun hle => ⟨hmin, hle, hpos, Int.dvd_sub hdvd' hdvd⟩⟩

/-- The extendable output functions are the two SHAKEs. -/
theorem isShake_iff (cipher : Cipher) :
    cipher.isShake ↔ (¬cipher = .hashShake128 → cipher = .hashShake256) := by
  cases cipher <;> simp [Cipher.isShake]

/-- The other hashes are those with a fixed output. -/
theorem isSha_iff_of_isHash {cipher : Cipher} (h : cipher.isHash) :
    cipher.isSha ↔ ¬cipher = .hashShake128 ∧ ¬cipher = .hashShake256 := by
  revert h
  cases cipher <;> simp [Cipher.isHash, Cipher.isSha, Cipher.isShake]

/-- When the domains of a hash are well formed. -/
theorem hashSetDomain_sound_iff (cipher : Cipher) (parm : HashParm) (min max increment : Int) :
    (∀ s, (hashSetDomain cipher parm min max increment).DomainSound s) ↔
      (hashSetDomain cipher parm min max increment).DomainCondition := by
  by_cases hhash : cipher.isHash
  · have haction : (hashSetDomain cipher parm min max increment).action =
        .atEntry cipher (.member CapType.hash.member
          (uncounted (LibAmvp.hashSetDomain cipher parm min max increment))) := if_pos hhash
    refine (domainSound_member_iff haction rfl).trans ?_
    change (∀ x : HashCap, SoundAt (hashDomain parm)
      (LibAmvp.hashSetDomain cipher parm min max increment) x) ↔ _
    have hnonempty : Nonempty HashCap := ⟨{}⟩
    cases parm <;> simp [LibAmvp.hashSetDomain, hashStoreDomain, hashDomain, DomainCondition]
    case outLength =>
      rw [isShake_iff]
      refine imp_congr_right fun _ => imp_congr_right fun hmin => imp_congr_right fun _ =>
        and_congr_right fun hle => ?_
      rw [imp_iff_right hle]
      unfold hashXofMdBitMin at hmin
      exact imp_congr_right fun _ => imp_congr_right fun hpos => imp_congr_right fun hdvd =>
        imp_congr_right fun hdvd' => isRange_iff_of_dvd (by omega) hpos hdvd hdvd'
    case messageLen =>
      rw [← and_imp, ← isSha_iff_of_isHash hhash]
      exact imp_congr_right fun _ => imp_congr_right fun hmin => imp_congr_right fun _ =>
        imp_congr_right fun hpos => imp_congr_right fun hdvd => imp_congr_right fun hdvd' =>
          isRange_iff_of_dvd hmin hpos hdvd hdvd'
  · have haction : (hashSetDomain cipher parm min max increment).action =
        .refuse .invalidArg := if_neg hhash
    refine iff_of_true (domainSound_of_refuse haction (by decide)) ?_
    have hnot : ¬cipher.isSha ∧ ¬cipher.isShake := by simpa [Cipher.isHash] using hhash
    cases parm with
    | messageLen => exact fun h => absurd h hnot.1
    | outLength => exact fun h => absurd h hnot.2
    | _ => trivial

/-- When the key lengths of an HMAC are well formed. -/
theorem hmacSetDomain_sound_iff (cipher : Cipher) (parm : HmacParm) (min max increment : Int) :
    (∀ s, (hmacSetDomain cipher parm min max increment).DomainSound s) ↔
      (hmacSetDomain cipher parm min max increment).DomainCondition := by
  have haction : (hmacSetDomain cipher parm min max increment).action =
      .atEntry cipher (.member CapType.hmac.member
        (uncounted (LibAmvp.hmacSetDomain parm min max increment))) := rfl
  refine (domainSound_member_iff haction rfl).trans ?_
  change (∀ x : HmacCap, SoundAt (hmacDomain parm)
    (LibAmvp.hmacSetDomain parm min max increment) x) ↔ _
  have hnonempty : Nonempty HmacCap := ⟨{}⟩
  cases parm <;>
    simp [LibAmvp.hmacSetDomain, storeBoundedDomain, hmacDomain, DomainCondition, RangeWithin,
      hmacBounds]

/-- When the lengths of a CMAC are well formed. -/
theorem cmacSetDomain_sound_iff (cipher : Cipher) (parm : CmacParm) (min max increment : Int) :
    (∀ s, (cmacSetDomain cipher parm min max increment).DomainSound s) ↔
      (cmacSetDomain cipher parm min max increment).DomainCondition := by
  have haction : (cmacSetDomain cipher parm min max increment).action =
      .atEntry cipher (.member CapType.cmac.member
        (uncounted (LibAmvp.cmacSetDomain parm min max increment))) := rfl
  refine (domainSound_member_iff haction rfl).trans ?_
  change (∀ x : CmacCap, SoundAt (cmacDomain parm)
    (LibAmvp.cmacSetDomain parm min max increment) x) ↔ _
  have hnonempty : Nonempty CmacCap := ⟨{}⟩
  cases parm <;>
    simp [LibAmvp.cmacSetDomain, storeBoundedDomain, cmacDomain, DomainCondition, RangeWithin,
      cmacBounds]

/-- What {lit}`validate_domain_range` lets pass is well formed, but it divides by zero. -/
theorem soundAt_validateDomainRange {σ : Type} {place : Option (σ → Domain)} {op : Setter σ} {x : σ}
    {min max inc : Int} (hop : IsRange min max inc → SoundAt place op x) :
    SoundAt place (validateDomainRange min max inc op) x ↔ (0 ≤ min → min ≤ max → inc ≠ 0) := by
  unfold validateDomainRange
  split_ifs with hends hzero hstep
  · exact iff_of_true (soundAt_refuse (by decide)) (by omega)
  · exact iff_of_false soundAt_divisionByZero (by omega)
  · exact iff_of_true (soundAt_refuse (by decide)) fun _ _ => hzero
  · have hrange : IsRange min max inc :=
      ⟨by omega, by omega, by omega, Int.dvd_of_emod_eq_zero (not_not.mp hstep)⟩
    exact iff_of_true (hop hrange) fun _ _ => hzero

/-- When the lengths of a KMAC are well formed. -/
theorem kmacSetDomain_sound_iff (cipher : Cipher) (parm : KmacParm) (min max increment : Int) :
    (∀ s, (kmacSetDomain cipher parm min max increment).DomainSound s) ↔
      (kmacSetDomain cipher parm min max increment).DomainCondition := by
  have haction : (kmacSetDomain cipher parm min max increment).action =
      .atEntry cipher (.member CapType.kmac.member
        (uncounted (LibAmvp.kmacSetDomain parm min max increment))) := rfl
  refine (domainSound_member_iff haction rfl).trans ?_
  change (∀ x : KmacCap, SoundAt (kmacDomain parm)
    (LibAmvp.kmacSetDomain parm min max increment) x) ↔ _
  have hnonempty : Nonempty KmacCap := ⟨{}⟩
  refine (forall_congr' fun x => soundAt_validateDomainRange fun hrange => ?_).trans
    (forall_const KmacCap)
  cases parm <;> simp [kmacDomain, hrange]

/-- When the lengths of the X9.42 KDF are well formed. -/
theorem kdf135X942SetDomain_sound_iff (param : Kdf135X942Parm) (min max increment : Int) :
    (∀ s, (kdf135X942SetDomain param min max increment).DomainSound s) ↔
      (kdf135X942SetDomain param min max increment).DomainCondition := by
  have haction : (kdf135X942SetDomain param min max increment).action =
      .atEntry .kdf135X942 (.member CapType.kdf135X942.member
        (uncounted (LibAmvp.kdf135X942SetDomain param min max increment))) := rfl
  refine (domainSound_member_iff haction rfl).trans ?_
  change (∀ x : Kdf135X942Cap, SoundAt (x942Domain param)
    (LibAmvp.kdf135X942SetDomain param min max increment) x) ↔ _
  have hnonempty : Nonempty Kdf135X942Cap := ⟨{}⟩
  cases param <;>
    simp [LibAmvp.kdf135X942SetDomain, validateKdf135X942DomainValue, x942Domain,
      DomainCondition, RangeWithin, x942Bounds, passes]

/-- A call that changes a domain when the ends of the range are within bounds. -/
theorem domainSound_storeBetween_iff {type : CapType} {lower upper min max increment : Int}
    {get : type.member.Data → Domain} {f : type.member.Data → type.member.Data}
    (hslot : c.domainSlot = some ⟨cipher, type, some get⟩)
    (haction : c.action = .atEntry cipher (storeBetween lower upper min max type.member f))
    (hf : ∀ x, (get (f x)).WellFormed ↔ IsRange min max increment) :
    (∀ s, c.DomainSound s) ↔ (lower ≤ min → max ≤ upper → IsRange min max increment) := by
  unfold storeBetween at haction
  split_ifs at haction with hbounds
  · exact iff_of_true (domainSound_of_atEntry_refuse haction (by decide)) (by omega)
  · rw [domainSound_member_iff haction hslot]
    simp only [soundAt_accept, hf]
    have hnonempty : Nonempty type.member.Data := ⟨type.member.allocate⟩
    rw [forall_const, imp_iff_right (by omega), imp_iff_right (by omega)]

/-- At a step of one the increment is a multiple of it. -/
theorem rangeWithin_some_one {lower upper min max increment : Int} :
    RangeWithin (some (lower, upper)) 1 min max increment ↔
      (lower ≤ min → max ≤ upper → IsRange min max increment) := by
  simp [RangeWithin]

/-- Without bounds nothing is asked. -/
theorem rangeWithin_none (step min max increment : Int) :
    RangeWithin none step min max increment :=
  nofun

/-- When the lengths of the IKEv2 KDF are well formed. -/
theorem kdf135Ikev2SetDomain_sound_iff (param : Kdf135Ikev2Parm) (min max increment : Int) :
    (∀ s, (kdf135Ikev2SetDomain param min max increment).DomainSound s) ↔
      (kdf135Ikev2SetDomain param min max increment).DomainCondition := by
  cases param with
  | initNonceLen | respondNonceLen | dhSecretLen | keyMaterialLen =>
      refine Iff.trans ?_ rangeWithin_some_one.symm
      exact domainSound_storeBetween_iff rfl rfl fun _ => Iff.rfl
  | _ =>
      exact iff_of_true (domainSound_of_atEntry_refuse rfl (by decide)) (rangeWithin_none _ _ _ _)

/-- When the lengths of the IKEv1 KDF are well formed. -/
theorem kdf135Ikev1SetDomain_sound_iff (param : Kdf135Ikev1Parm) (min max increment : Int) :
    (∀ s, (kdf135Ikev1SetDomain param min max increment).DomainSound s) ↔
      (kdf135Ikev1SetDomain param min max increment).DomainCondition := by
  cases param with
  | initNonceLen | respondNonceLen | dhSecretLen | pskLen =>
      refine Iff.trans ?_ rangeWithin_some_one.symm
      exact domainSound_storeBetween_iff rfl rfl fun _ => Iff.rfl
  | _ =>
      exact iff_of_true (domainSound_of_atEntry_refuse rfl (by decide)) (rangeWithin_none _ _ _ _)

/-- When the domains of PBKDF are well formed. -/
theorem pbkdfSetDomain_sound_iff (param : PbkdfParm) (min max increment : Int) :
    (∀ s, (pbkdfSetDomain param min max increment).DomainSound s) ↔
      (pbkdfSetDomain param min max increment).DomainCondition := by
  by_cases hends : max < min ∨ increment < 1
  · have haction : (pbkdfSetDomain param min max increment).action =
        .atEntry .pbkdf (.refuse .invalidArg) := congrArg _ (if_pos hends)
    exact iff_of_true (domainSound_of_atEntry_refuse haction (by decide))
      fun _ _ => absurd hends (by omega)
  · have hcondition : (pbkdfSetDomain param min max increment).DomainCondition ↔
        RangeWithin (pbkdfBounds param) 1 min max increment :=
      ⟨fun h => h (by omega) (by omega), fun h _ _ => h⟩
    rw [hcondition]
    cases param with
    | iterationCount | keyLen | passwordLen | saltLen =>
        refine Iff.trans ?_ rangeWithin_some_one.symm
        exact domainSound_storeBetween_iff rfl (congrArg _ (if_neg hends)) fun _ => Iff.rfl
    | _ =>
        exact iff_of_true (domainSound_of_atEntry_refuse (congrArg _ (if_neg hends)) (by decide))
          (rangeWithin_none _ _ _ _)

/-- A setter that works on a mode of the SP 800-108 functions. -/
theorem soundAt_kdf108AtMode {mode : Kdf108Mode} {op : String → Setter Kdf108ModeParams}
    {x : Kdf108Cap} {r : Prop}
    (hop : ∀ name params, SoundAt (some Kdf108ModeParams.supportedLens) (op name) params ↔ r) :
    SoundAt (modeDomain mode) (kdf108AtMode mode op) x ↔ ((modeDomain mode).isSome → r) := by
  cases mode with
  | counter =>
      have hzoom := soundAt_zoom (some Kdf108ModeParams.supportedLens) Kdf108Cap.counterMode
        (fun m cap => { cap with counterMode := m }) (op "counter") x fun _ => rfl
      exact Iff.trans Iff.rfl (hzoom.trans ((hop _ _).trans (imp_iff_right rfl).symm))
  | feedback =>
      have hzoom := soundAt_zoom (some Kdf108ModeParams.supportedLens) Kdf108Cap.feedbackMode
        (fun m cap => { cap with feedbackMode := m }) (op "feedback") x fun _ => rfl
      exact Iff.trans Iff.rfl (hzoom.trans ((hop _ _).trans (imp_iff_right rfl).symm))
  | dpi =>
      have hzoom := soundAt_zoom (some Kdf108ModeParams.supportedLens) Kdf108Cap.dpiMode
        (fun m cap => { cap with dpiMode := m }) (op "double pipeline iteration") x fun _ => rfl
      exact Iff.trans Iff.rfl (hzoom.trans ((hop _ _).trans (imp_iff_right rfl).symm))
  | other raw => exact iff_of_true (soundAt_refuse (by decide)) nofun

/-- A refusal in a mode of the KBKDF is sound, with the mode there or not. -/
theorem soundAt_kdf108AtMode_refuse (place : Option (Kdf108Cap → Domain)) (mode : Kdf108Mode)
    (x : Kdf108Cap) : SoundAt place (kdf108AtMode mode fun _ => refuse .invalidArg) x := by
  cases mode <;> exact soundAt_of_eq_ok rfl nofun

/-- When the lengths of a KBKDF mode are well formed. -/
theorem kdf108SetDomain_sound_iff (mode : Kdf108Mode) (param : Kdf108Parm)
    (min max increment : Int) :
    (∀ s, (kdf108SetDomain mode param min max increment).DomainSound s) ↔
      (kdf108SetDomain mode param min max increment).DomainCondition := by
  by_cases hends : min = 0 ∨ max > kdf108KeyinBitMax
  · have haction : (kdf108SetDomain mode param min max increment).action =
        .atEntry .kdf108 (.refuse .invalidArg) := congrArg _ (if_pos hends)
    refine iff_of_true (domainSound_of_atEntry_refuse haction (by decide)) ?_
    cases param with
    | supportedLen => exact fun _ hmin hmax => absurd hends (by omega)
    | _ => trivial
  · have haction : (kdf108SetDomain mode param min max increment).action =
        .atEntry .kdf108 (.member CapType.kdf108.member
          (uncounted (kdf108AtMode mode fun _ => kdf108StoreDomain param min max increment))) :=
      congrArg _ (if_neg hends)
    refine (domainSound_member_iff haction rfl).trans ?_
    have hnonempty : Nonempty Kdf108Cap := ⟨{}⟩
    cases param with
    | supportedLen =>
        have hstore : ∀ x : Kdf108Cap, SoundAt (modeDomain mode)
            (kdf108AtMode mode fun _ => kdf108StoreDomain .supportedLen min max increment) x ↔
              ((modeDomain mode).isSome → IsRange min max increment) := fun x =>
          soundAt_kdf108AtMode fun _ _ => soundAt_accept
        refine (forall_congr' hstore).trans ((forall_const Kdf108Cap).trans ?_)
        exact imp_congr_right fun _ => ⟨fun h _ _ => h, fun h => h (by omega) (by omega)⟩
    | _ => exact iff_of_true (soundAt_kdf108AtMode_refuse none mode) trivial

/-- A range of a KDA is well formed exactly when it is one within the bounds and a step of eight. -/
theorem soundAt_kdaSetRange {σ : Type} {get : σ → Domain} {f : σ → σ} {x : σ}
    {lower min max increment : Int} (hf : (get (f x)).WellFormed ↔ IsRange min max increment) :
    SoundAt (some get) (kdaSetRange lower min max increment f) x ↔
      RangeWithin (some (lower, 65536)) 8 min max increment := by
  unfold kdaSetRange
  rw [soundAt_ite, soundAt_accept, hf]
  simp [RangeWithin]

/-- The secret of a hybrid scheme can be set for one revision only, which is that of a new
entry. -/
theorem soundAt_hybrid_iff {σ : Type} {get : σ → Domain} {f : σ → σ} {revision : σ → Int} {fresh : σ}
    (hfresh : revision fresh = 0) {lower min max increment : Int}
    (hf : ∀ x, (get (f x)).WellFormed ↔ IsRange min max increment) :
    (∀ x, SoundAt (some get) (Op.inspect fun cap =>
      if revision cap ≠ 0 then refuse .invalidArg else kdaSetRange lower min max increment f) x) ↔
      RangeWithin (some (lower, 65536)) 8 min max increment := by
  constructor
  · intro h
    have hstore := h fresh
    rw [soundAt_inspect, if_neg (not_not.mpr hfresh)] at hstore
    exact (soundAt_kdaSetRange (hf fresh)).mp hstore
  · intro h x
    rw [soundAt_inspect, soundAt_ite]
    exact ⟨fun _ => soundAt_refuse (by decide), fun _ => (soundAt_kdaSetRange (hf x)).mpr h⟩

/-- When the domains of the one-step KDA and of HKDF are well formed. -/
theorem kdaSetDomain_sound_iff (cipher : Cipher) (param : KdaParm) (min max increment : Int) :
    (∀ s, (kdaSetDomain cipher param min max increment).DomainSound s) ↔
      (kdaSetDomain cipher param min max increment).DomainCondition := by
  by_cases honestep : cipher = .kdaOnestep
  · subst honestep
    have haction : (kdaSetDomain .kdaOnestep param min max increment).action =
        .atEntry .kdaOnestep (.member CapType.kdaOnestep.member
          (uncounted (kdaOnestepSetDomain param min max increment))) := rfl
    refine (domainSound_member_iff haction rfl).trans ?_
    have hnonempty : Nonempty KdaOnestepCap := ⟨{}⟩
    refine Iff.trans ?_ (imp_iff_right (.inl rfl)).symm
    cases param with
    | z =>
        have hstore : ∀ x : KdaOnestepCap, SoundAt (kdaOnestepDomain .z)
            (kdaOnestepSetDomain .z min max increment) x ↔
              RangeWithin (some (224, 65536)) 8 min max increment :=
          fun x => soundAt_kdaSetRange Iff.rfl
        exact (forall_congr' hstore).trans (forall_const KdaOnestepCap)
    | _ => exact iff_of_true (fun x => soundAt_refuse (by decide)) (rangeWithin_none _ _ _ _)
  by_cases hhkdf : cipher = .kdaHkdf
  · subst hhkdf
    have haction : (kdaSetDomain .kdaHkdf param min max increment).action =
        .atEntry .kdaHkdf (.member CapType.kdaHkdf.member
          (uncounted (kdaHkdfSetDomain param min max increment))) := rfl
    refine (domainSound_member_iff haction rfl).trans ?_
    have hnonempty : Nonempty KdaHkdfCap := ⟨{}⟩
    refine Iff.trans ?_ (imp_iff_right (.inr rfl)).symm
    cases param with
    | z =>
        have hstore : ∀ x : KdaHkdfCap, SoundAt (kdaHkdfDomain .z)
            (kdaHkdfSetDomain .z min max increment) x ↔
              RangeWithin (some (224, 65536)) 8 min max increment :=
          fun x => soundAt_kdaSetRange Iff.rfl
        exact (forall_congr' hstore).trans (forall_const KdaHkdfCap)
    | useHybridSecret =>
        exact soundAt_hybrid_iff (show KdaHkdfCap.revision {} = 0 from rfl) fun _ => Iff.rfl
    | _ => exact iff_of_true (fun x => soundAt_refuse (by decide)) (rangeWithin_none _ _ _ _)
  · have haction : ∃ rv, rv ≠ .success ∧
        (kdaSetDomain cipher param min max increment).action = .atEntry cipher (.refuse rv) := by
      have hact : (kdaSetDomain cipher param min max increment).action = .atEntry cipher
          (if cipher.isAlgorithm then .refuse .invalidArg else .refuse .mallocFail) := by
        simp only [action, capKdaSetDomain]
      rw [hact]
      split
      · exact ⟨.invalidArg, by decide, rfl⟩
      · exact ⟨.mallocFail, by decide, rfl⟩
    obtain ⟨rv, hrv, haction⟩ := haction
    refine iff_of_true (domainSound_of_atEntry_refuse haction hrv) fun h => ?_
    exact absurd h (not_or.mpr ⟨honestep, hhkdf⟩)

/-- When the domains of the two-step KDA are well formed. -/
theorem kdaTwostepSetDomain_sound_iff (param : KdaParm) (min max increment : Int)
    (kdfMode : Kdf108Mode) :
    (∀ s, (kdaTwostepSetDomain param min max increment kdfMode).DomainSound s) ↔
      (kdaTwostepSetDomain param min max increment kdfMode).DomainCondition := by
  have haction : (kdaTwostepSetDomain param min max increment kdfMode).action =
      .atEntry .kdaTwostep (.member CapType.kdaTwostep.member
        (uncounted (LibAmvp.kdaTwostepSetDomain param min max increment kdfMode))) := rfl
  refine (domainSound_member_iff haction rfl).trans ?_
  have hnonempty : Nonempty KdaTwostepCap := ⟨{}⟩
  cases param with
  | twostepSupportedLen =>
      have hstore : ∀ x : KdaTwostepCap, SoundAt (kdaTwostepDomain kdfMode .twostepSupportedLen)
          (LibAmvp.kdaTwostepSetDomain .twostepSupportedLen min max increment kdfMode) x ↔
            ((modeDomain kdfMode).isSome → increment ≠ 0 → IsRange min max increment) := by
        intro x
        refine (soundAt_zoom (modeDomain kdfMode) KdaTwostepCap.kdfParams
          (fun params cap => { cap with kdfParams := params }) _ x fun _ => rfl).trans ?_
        refine soundAt_kdf108AtMode fun name params => ?_
        rw [soundAt_changed, soundAt_ite, soundAt_accept]
        exact ⟨fun h => h.2, fun h => ⟨fun _ => soundAt_refuse (by decide), h⟩⟩
      exact (forall_congr' hstore).trans (forall_const KdaTwostepCap)
  | z =>
      have hstore : ∀ x : KdaTwostepCap, SoundAt (kdaTwostepDomain kdfMode .z)
          (LibAmvp.kdaTwostepSetDomain .z min max increment kdfMode) x ↔
            RangeWithin (some (224, 65536)) 8 min max increment :=
        fun x => soundAt_kdaSetRange Iff.rfl
      exact (forall_congr' hstore).trans (forall_const KdaTwostepCap)
  | useHybridSecret =>
      exact soundAt_hybrid_iff (show KdaTwostepCap.revision {} = 0 from rfl) fun _ => Iff.rfl
  | _ => exact iff_of_true (fun x => soundAt_refuse (by decide)) (rangeWithin_none _ _ _ _)

/-- A function that sets a domain has a defined outcome on every context and stores a well-formed
range only, exactly for the arguments that meet its condition. -/
theorem domainSound_iff (c : CapCall) (hslot : c.domainSlot.isSome) :
    (∀ s, c.DomainSound s) ↔ c.DomainCondition := by
  cases c with
  | symCipherSetDomain cipher parm min max increment =>
      exact iff_of_true (symCipherSetDomain_sound cipher parm min max increment) trivial
  | hashSetDomain cipher parm min max increment =>
      exact hashSetDomain_sound_iff cipher parm min max increment
  | hmacSetDomain cipher parm min max increment =>
      exact hmacSetDomain_sound_iff cipher parm min max increment
  | cmacSetDomain cipher parm min max increment =>
      exact cmacSetDomain_sound_iff cipher parm min max increment
  | kmacSetDomain cipher parm min max increment =>
      exact kmacSetDomain_sound_iff cipher parm min max increment
  | pbkdfSetDomain param min max increment => exact pbkdfSetDomain_sound_iff param min max increment
  | kdf108SetDomain mode param min max increment =>
      exact kdf108SetDomain_sound_iff mode param min max increment
  | kdf135Ikev2SetDomain param min max increment =>
      exact kdf135Ikev2SetDomain_sound_iff param min max increment
  | kdf135Ikev1SetDomain param min max increment =>
      exact kdf135Ikev1SetDomain_sound_iff param min max increment
  | kdf135X942SetDomain param min max increment =>
      exact kdf135X942SetDomain_sound_iff param min max increment
  | kdaSetDomain cipher param min max increment =>
      exact kdaSetDomain_sound_iff cipher param min max increment
  | kdaTwostepSetDomain param min max increment kdfMode =>
      exact kdaTwostepSetDomain_sound_iff param min max increment kdfMode
  | _ => cases hslot

/-- The message lengths of SHA-256 up to 65536 bits in whole bytes. -/
theorem domainSound_iff_sha256 :
    (hashSetDomain .hashSha256 .messageLen 0 65536 8).DomainSound
      (.single .hashSha256 .hash {}) :=
  (domainSound_iff (hashSetDomain .hashSha256 .messageLen 0 65536 8) rfl).mpr
    (fun _ _ _ _ _ _ => by decide) _

/-- Right after KMAC was enabled, an increment of zero is divided by; HMAC takes the increment,
and ends in the wrong order. -/
theorem setDomain_unsound :
    (∃ s, (kmacEnable .kmac128 (some ⟨0⟩)).exec {} = .ok (.success, s) ∧
      (kmacSetDomain .kmac128 .maclen 32 65536 0).exec s = .error (.trap .divisionByZero)) ∧
    ∃ s s', (hmacEnable .hmacSha1 (some ⟨0⟩)).exec {} = .ok (.success, s) ∧
      (hmacSetDomain .hmacSha1 .maclen 512 32 0).exec s = .ok (.success, s') ∧
      (s'.content .hmacSha1 .hmacCap).map HmacCap.macLen = some ⟨512, 32, 0, []⟩ := by
  exact ⟨⟨_, rfl, rfl⟩, _, _, rfl, rfl, rfl⟩

end CapCall

end LibAmvp
