import LibAmvp.Capabilities.Types

/-!
# The capability list

Every function of the capability interface checks its arguments and then does one of
three things: it refuses, it appends a new entry for a cipher, or it works on the first
entry of a cipher.  On an entry it refuses, records a prerequisite, or works on the
content through one member of the union.

Main results:

- Theorem {lit}`EntryAction.run_tag`: working on an entry changes neither its cipher nor
  its type.
- Theorem {lit}`CapAction.run_tags`: the ciphers and types of the whole list after a
  call.
- Theorem {lit}`CapAction.cleanAt_atEntry_member_iff`: a call that works on a member is
  clean exactly where the work on the member is.
-/

namespace LibAmvp

open Keyed

/-! ## The union -/

/-- The members of the union in {lit}`AMVP_CAPS_LIST`. -/
inductive Member where
  | symCap | hashCap | drbgCap | dsaCap | hmacCap | cmacCap | kmacCap
  | rsaKeygenCap | rsaSiggenCap | rsaSigverCap | rsaPrimCap
  | ecdsaKeygenCap | ecdsaKeyverCap | ecdsaSiggenCap | ecdsaSigverCap
  | kdf135SnmpCap | kdf135SshCap | kdf135SrtpCap | kdf135Ikev2Cap | kdf135Ikev1Cap
  | kdf135X942Cap | kdf135X963Cap | kdf108Cap | pbkdfCap | kdfTls12Cap | kdfTls13Cap
  | kasEccCap | kasFfcCap | kasIfcCap
  | kdaOnestepCap | kdaTwostepCap | kdaHkdfCap
  | ktsIfcCap
  | safePrimesKeygenCap | safePrimesKeyverCap
deriving DecidableEq

/-- What a member of the union points to. -/
@[reducible]
def Member.Data : Member → Type
  | .symCap => SymCipherCap
  | .hashCap => HashCap
  | .drbgCap => DrbgCap
  | .dsaCap => DsaCap
  | .hmacCap => HmacCap
  | .cmacCap => CmacCap
  | .kmacCap => KmacCap
  | .rsaKeygenCap => List RsaKeygenNode
  | .rsaSiggenCap => List RsaSigNode
  | .rsaSigverCap => List RsaSigNode
  | .rsaPrimCap => RsaPrimCap
  | .ecdsaKeygenCap => EcdsaCap
  | .ecdsaKeyverCap => EcdsaCap
  | .ecdsaSiggenCap => EcdsaCap
  | .ecdsaSigverCap => EcdsaCap
  | .kdf135SnmpCap => Kdf135SnmpCap
  | .kdf135SshCap => Kdf135SshCap
  | .kdf135SrtpCap => Kdf135SrtpCap
  | .kdf135Ikev2Cap => Kdf135Ikev2Cap
  | .kdf135Ikev1Cap => Kdf135Ikev1Cap
  | .kdf135X942Cap => Kdf135X942Cap
  | .kdf135X963Cap => Kdf135X963Cap
  | .kdf108Cap => Kdf108Cap
  | .pbkdfCap => PbkdfCap
  | .kdfTls12Cap => KdfTls12Cap
  | .kdfTls13Cap => KdfTls13Cap
  | .kasEccCap => KasEccCap
  | .kasFfcCap => KasFfcCap
  | .kasIfcCap => KasIfcCap
  | .kdaOnestepCap => KdaOnestepCap
  | .kdaTwostepCap => KdaTwostepCap
  | .kdaHkdfCap => KdaHkdfCap
  | .ktsIfcCap => KtsIfcCap
  | .safePrimesKeygenCap => SafePrimesCap
  | .safePrimesKeyverCap => SafePrimesCap

/-- The member that {lit}`amvp_cap_list_append` sets for a type. -/
def CapType.member : CapType → Member
  | .sym => .symCap
  | .hash => .hashCap
  | .drbg => .drbgCap
  | .hmac => .hmacCap
  | .cmac => .cmacCap
  | .kmac => .kmacCap
  | .rsaKeygen => .rsaKeygenCap
  | .rsaSiggen => .rsaSiggenCap
  | .rsaSigver => .rsaSigverCap
  | .rsaPrim => .rsaPrimCap
  | .ecdsaKeygen => .ecdsaKeygenCap
  | .ecdsaKeyver => .ecdsaKeyverCap
  | .ecdsaSiggen => .ecdsaSiggenCap
  | .ecdsaSigver => .ecdsaSigverCap
  | .dsa => .dsaCap
  | .kdf135Snmp => .kdf135SnmpCap
  | .kdf135Ssh => .kdf135SshCap
  | .kdf135Srtp => .kdf135SrtpCap
  | .kdf135Ikev2 => .kdf135Ikev2Cap
  | .kdf135Ikev1 => .kdf135Ikev1Cap
  | .kdf135X942 => .kdf135X942Cap
  | .kdf135X963 => .kdf135X963Cap
  | .kdf108 => .kdf108Cap
  | .pbkdf => .pbkdfCap
  | .kdfTls12 => .kdfTls12Cap
  | .kdfTls13 => .kdfTls13Cap
  | .kasEccCdh | .kasEccComp | .kasEccNocomp | .kasEccSsc => .kasEccCap
  | .kasFfcComp | .kasFfcSsc | .kasFfcNocomp => .kasFfcCap
  | .kasIfc => .kasIfcCap
  | .kdaOnestep => .kdaOnestepCap
  | .kdaTwostep => .kdaTwostepCap
  | .kdaHkdf => .kdaHkdfCap
  | .ktsIfc => .ktsIfcCap
  | .safePrimesKeygen => .safePrimesKeygenCap
  | .safePrimesKeyver => .safePrimesKeyverCap

/-- {lit}`AMVP_DSA_MAX_MODES`. -/
def dsaMaxModes : Nat := 5

/-- {lit}`AMVP_KAS_ECC_MAX_MODES`. -/
def kasEccMaxModes : Nat := 5

/-- {lit}`AMVP_KAS_FFC_MAX_MODES`. -/
def kasFfcMaxModes : Nat := 4

/-- {lit}`allocate_dsa_cap`. -/
def allocateDsaCap : DsaCap where
  dsaCapMode := (List.range dsaMaxModes).map fun i => { capMode := i + 1 }

/-- {lit}`allocate_kas_ecc_cap`. -/
def allocateKasEccCap : KasEccCap where
  kasEccMode := (List.range kasEccMaxModes).map fun i => { capMode := i + 1 }

/-- {lit}`allocate_kas_ffc_cap`. -/
def allocateKasFfcCap : KasFfcCap where
  kasFfcMode := (List.range kasFfcMaxModes).map fun i => { capMode := i + 1 }

/-- The content of a new entry. -/
def Member.allocate : (m : Member) → m.Data
  | .symCap => { performCtrTests := 1, dulenMatchesPaylen := 1 : SymCipherCap }
  | .hashCap => ({} : HashCap)
  | .drbgCap => ({} : DrbgCap)
  | .dsaCap => allocateDsaCap
  | .hmacCap => ({} : HmacCap)
  | .cmacCap => ({} : CmacCap)
  | .kmacCap => ({} : KmacCap)
  | .rsaKeygenCap => ([{}] : List RsaKeygenNode)
  | .rsaSiggenCap => ([{}] : List RsaSigNode)
  | .rsaSigverCap => ([{}] : List RsaSigNode)
  | .rsaPrimCap => ({} : RsaPrimCap)
  | .ecdsaKeygenCap => ({} : EcdsaCap)
  | .ecdsaKeyverCap => ({} : EcdsaCap)
  | .ecdsaSiggenCap => ({} : EcdsaCap)
  | .ecdsaSigverCap => ({} : EcdsaCap)
  | .kdf135SnmpCap => ({} : Kdf135SnmpCap)
  | .kdf135SshCap => ({} : Kdf135SshCap)
  | .kdf135SrtpCap => ({} : Kdf135SrtpCap)
  | .kdf135Ikev2Cap => ({} : Kdf135Ikev2Cap)
  | .kdf135Ikev1Cap => ({} : Kdf135Ikev1Cap)
  | .kdf135X942Cap => ({} : Kdf135X942Cap)
  | .kdf135X963Cap => ({} : Kdf135X963Cap)
  | .kdf108Cap => ({} : Kdf108Cap)
  | .pbkdfCap => ({} : PbkdfCap)
  | .kdfTls12Cap => ({} : KdfTls12Cap)
  | .kdfTls13Cap => ({} : KdfTls13Cap)
  | .kasEccCap => allocateKasEccCap
  | .kasFfcCap => allocateKasFfcCap
  | .kasIfcCap => ({} : KasIfcCap)
  | .kdaOnestepCap => ({} : KdaOnestepCap)
  | .kdaTwostepCap => ({} : KdaTwostepCap)
  | .kdaHkdfCap => ({} : KdaHkdfCap)
  | .ktsIfcCap => ({} : KtsIfcCap)
  | .safePrimesKeygenCap => ({} : SafePrimesCap)
  | .safePrimesKeyverCap => ({} : SafePrimesCap)

/-! ## Entries -/

/-- The application's function for the test cases of an algorithm. -/
structure CryptoHandler where
  address : Nat
deriving DecidableEq

/-- {lit}`AMVP_CAPS_LIST`; the content is that of the member its type says. -/
structure CapsEntry where
  cipher : Cipher
  capType : CapType
  hasPrereq : Int := 0
  prereqVals : List Prereq := []
  cap : capType.member.Data
  cryptoHandler : CryptoHandler

/-- What the capability functions change of {lit}`AMVP_CTX`. -/
structure Caps where
  capsList : List CapsEntry := []
  vsCount : Int := 0

/-- Behaviour without a defined outcome. -/
inductive Trap where
  /-- An access past the end of an array. -/
  | outOfBounds
  | divisionByZero
  | nullPointer
  /-- A result outside the range of the C type {lit}`int`. -/
  | overflow
deriving DecidableEq

/-- What can go wrong in a call. -/
inductive Fault where
  /-- The content of an entry of this type is used through this member. -/
  | wrongMember (capType : CapType) (m : Member)
  | trap (t : Trap)
deriving DecidableEq

/-- An operation of the capability interface on a part of the context. -/
abbrev Setter (σ : Type) := Op Trap AmvpResult σ

/-- Refuse with a result. -/
abbrev refuse {σ : Type} (rv : AmvpResult) : Setter σ := Op.answer rv

/-- Accept and change the state. -/
abbrev accept {σ : Type} (f : σ → σ) : Setter σ := Op.store .success f

/-- A setter on the content of an entry that leaves {lit}`vs_count` alone. -/
def uncounted {σ : Type} (op : Setter σ) : Setter (σ × Int) :=
  Op.zoom Prod.fst (fun d s => (d, s.2)) op

/-! ## Actions -/

/-- What a function does with the entry it has located. -/
inductive EntryAction where
  | refuse (rv : AmvpResult)
  /-- Work on {lit}`has_prereq` and {lit}`prereq_vals`. -/
  | prereq (op : Setter (Int × List Prereq))
  /-- Work on the content through a member, and on {lit}`vs_count`. -/
  | member (m : Member) (op : Setter (m.Data × Int))

/-- What a function does once its arguments have passed. -/
inductive CapAction where
  | refuse (rv : AmvpResult)
  /-- {lit}`amvp_cap_list_append`. -/
  | append (type : CapType) (cipher : Cipher) (handler : CryptoHandler)
  /-- Work on the first entry of a cipher. -/
  | atEntry (cipher : Cipher) (act : EntryAction)

/-- Change the content of a member. -/
abbrev EntryAction.store (m : Member) (f : m.Data → m.Data) : EntryAction :=
  .member m (uncounted (accept f))

/-- A function that registers an algorithm refuses to do so without a handler. -/
def withHandler (handler : Option CryptoHandler) (act : CryptoHandler → CapAction) : CapAction :=
  match handler with
  | none => .refuse .invalidArg
  | some handler => act handler

/-- The ciphers that {lit}`amvp_cap_list_append` lets have a type. -/
def CapType.admits (type : CapType) (cipher : Cipher) : Bool :=
  match type with
  | .sym | .hash | .drbg | .hmac | .cmac | .kmac | .dsa | .safePrimesKeygen
  | .safePrimesKeyver => true
  | .ecdsaKeygen => cipher = .ecdsaKeygen
  | .ecdsaKeyver => cipher = .ecdsaKeyver
  | .ecdsaSiggen => cipher = .ecdsaSiggen
  | .ecdsaSigver => cipher = .ecdsaSigver
  | .kasEccCdh => cipher = .kasEccCdh
  | .kasEccComp => cipher = .kasEccComp
  | .kasEccNocomp => cipher = .kasEccNocomp
  | .kasEccSsc => cipher = .kasEccSsc
  | .kasFfcSsc => cipher = .kasFfcSsc
  | .kasFfcComp => cipher = .kasFfcComp
  | .kasFfcNocomp => cipher = .kasFfcNocomp
  | .kdaHkdf => cipher = .kdaHkdf
  | .kdaOnestep => cipher = .kdaOnestep
  | .kdaTwostep => cipher = .kdaTwostep
  | .kasIfc => cipher = .kasIfcSsc
  | .ktsIfc => cipher = .ktsIfc
  | .kdf108 => cipher = .kdf108
  | .kdf135Ikev1 => cipher = .kdf135Ikev1
  | .kdf135Ikev2 => cipher = .kdf135Ikev2
  | .kdf135Snmp => cipher = .kdf135Snmp
  | .kdf135Srtp => cipher = .kdf135Srtp
  | .kdf135Ssh => cipher = .kdf135Ssh
  | .kdf135X942 => cipher = .kdf135X942
  | .kdf135X963 => cipher = .kdf135X963
  | .pbkdf => cipher = .pbkdf
  | .kdfTls12 => cipher = .kdfTls12
  | .kdfTls13 => cipher = .kdfTls13
  | .rsaKeygen => cipher = .rsaKeygen
  | .rsaSiggen => cipher = .rsaSiggen
  | .rsaSigver => cipher = .rsaSigver
  | .rsaPrim => cipher = .rsaSigprim || cipher = .rsaDecprim

/-- {lit}`amvp_locate_cap_entry`. -/
def Caps.locate (s : Caps) (cipher : Cipher) : Option CapsEntry :=
  s.capsList.find? fun e => e.cipher == cipher

/-- The entry that {lit}`amvp_cap_list_append` makes. -/
def CapsEntry.new (type : CapType) (cipher : Cipher) (handler : CryptoHandler) : CapsEntry where
  cipher := cipher
  capType := type
  cap := type.member.allocate
  cryptoHandler := handler

/-- {lit}`amvp_cap_list_append`. -/
def capListAppend (type : CapType) (cipher : Cipher) (handler : CryptoHandler) :
    Op Fault AmvpResult Caps := fun s =>
  if (s.locate cipher).isSome then .ok (.dupCipher, s)
  else if type.admits cipher then
    .ok (.success,
      { capsList := s.capsList ++ [.new type cipher handler], vsCount := s.vsCount + 1 })
  else .ok (.invalidArg, s)

/-- Use the content of an entry through a member. -/
def viaMember (m : Member) (op : Setter (m.Data × Int)) :
    Op Fault AmvpResult (CapsEntry × Int) := fun s =>
  if h : m = s.1.capType.member then
    match (h ▸ op : Setter (s.1.capType.member.Data × Int)) (s.1.cap, s.2) with
    | .ok (rv, d, vsCount) => .ok (rv, { s.1 with cap := d }, vsCount)
    | .error t => .error (.trap t)
  else .error (.wrongMember s.1.capType m)

/-- Work on an entry. -/
def EntryAction.run : EntryAction → Op Fault AmvpResult (CapsEntry × Int)
  | .refuse rv => Op.answer rv
  | .prereq op =>
    Op.retrap .trap
      (Op.zoom (fun s => (s.1.hasPrereq, s.1.prereqVals))
        (fun d s => ({ s.1 with hasPrereq := d.1, prereqVals := d.2 }, s.2)) op)
  | .member m op => viaMember m op

/-- Do what a function does once its arguments have passed. -/
def CapAction.run : CapAction → Op Fault AmvpResult Caps
  | .refuse rv => Op.answer rv
  | .append type cipher handler => capListAppend type cipher handler
  | .atEntry cipher act => fun s =>
    match s.locate cipher with
    | none => .ok (.noCap, s)
    | some e =>
      (act.run (e, s.vsCount)).map fun out =>
        (out.1, {
          capsList := setFirst (fun e => e.cipher == cipher) out.2.1 s.capsList
          vsCount := out.2.2 })

/-! ## What calls leave alone -/

/-- The cipher and the type of an entry. -/
def CapsEntry.tag (e : CapsEntry) : Cipher × CapType := (e.cipher, e.capType)

/-- The ciphers and types of the list. -/
def Caps.tags (s : Caps) : List (Cipher × CapType) := s.capsList.map CapsEntry.tag

theorem viaMember_eq_ok {m : Member} {op : Setter (m.Data × Int)} {s s' : CapsEntry × Int}
    {rv : AmvpResult} (h : viaMember m op s = .ok (rv, s')) :
    ∃ (hm : m = s.1.capType.member) (d : s.1.capType.member.Data),
      (hm ▸ op : Setter (s.1.capType.member.Data × Int)) (s.1.cap, s.2) = .ok (rv, d, s'.2) ∧
        s'.1 = { s.1 with cap := d } := by
  unfold viaMember at h
  split at h
  · rename_i hm
    split at h
    · rename_i hop
      cases h
      exact ⟨hm, _, hop, rfl⟩
    · cases h
  · cases h

/-- Working on an entry changes neither its cipher nor its type. -/
theorem EntryAction.run_tag {act : EntryAction} {s s' : CapsEntry × Int} {rv : AmvpResult}
    (h : act.run s = .ok (rv, s')) : s'.1.tag = s.1.tag := by
  cases act with
  | refuse r =>
      cases h
      rfl
  | prereq op =>
      obtain ⟨d, -, rfl⟩ := Op.zoom_eq_ok_iff.1 (Op.retrap_eq_ok_iff.1 h)
      rfl
  | member m op =>
      obtain ⟨-, d, -, hs'⟩ := viaMember_eq_ok h
      rw [hs']
      rfl

theorem Caps.locate_cipher {s : Caps} {cipher : Cipher} {e : CapsEntry}
    (h : s.locate cipher = some e) : e.cipher = cipher := by
  simpa using List.find?_some h

theorem Caps.mem_of_locate {s : Caps} {cipher : Cipher} {e : CapsEntry}
    (h : s.locate cipher = some e) : e ∈ s.capsList :=
  List.mem_of_find?_eq_some h

/-- A call that works on an entry: what it found, and what it made of it. -/
theorem CapAction.run_atEntry_eq_ok {cipher : Cipher} {act : EntryAction} {s s' : Caps}
    {rv : AmvpResult} (h : (CapAction.atEntry cipher act).run s = .ok (rv, s')) :
    (s.locate cipher = none ∧ rv = .noCap ∧ s' = s) ∨
      ∃ e e' vsCount, s.locate cipher = some e ∧
        act.run (e, s.vsCount) = .ok (rv, e', vsCount) ∧
        s' = { capsList := setFirst (fun e => e.cipher == cipher) e' s.capsList
               vsCount := vsCount } := by
  simp only [run] at h
  cases hlocate : s.locate cipher with
  | none =>
      rw [hlocate] at h
      cases h
      exact .inl ⟨rfl, rfl, rfl⟩
  | some e =>
      simp only [hlocate] at h
      cases hrun : act.run (e, s.vsCount) with
      | error f =>
          rw [hrun] at h
          cases h
      | ok out =>
          obtain ⟨rv', e', vsCount⟩ := out
          rw [hrun] at h
          cases h
          exact .inr ⟨e, e', vsCount, rfl, hrun, rfl⟩

/-- The entry a function appends when its arguments pass. -/
def CapAction.appended : CapAction → Option (Cipher × CapType)
  | .append type cipher _ => some (cipher, type)
  | _ => none

theorem capListAppend_eq_ok {type : CapType} {cipher : Cipher} {handler : CryptoHandler}
    {s s' : Caps} {rv : AmvpResult} (h : capListAppend type cipher handler s = .ok (rv, s')) :
    (rv = .success ∧ s.locate cipher = none ∧ type.admits cipher ∧
        s'.capsList = s.capsList ++ [.new type cipher handler] ∧ s'.vsCount = s.vsCount + 1) ∨
      (rv ≠ .success ∧ s' = s) := by
  unfold capListAppend at h
  split at h
  · cases h
    exact .inr ⟨by decide, rfl⟩
  · rename_i hlocate
    split at h
    · rename_i hadmits
      cases h
      exact .inl ⟨rfl, by simpa using hlocate, hadmits, rfl, rfl⟩
    · cases h
      exact .inr ⟨by decide, rfl⟩

/-- The ciphers and types of the list after a call. -/
theorem CapAction.run_tags {a : CapAction} {s s' : Caps} {rv : AmvpResult}
    (h : a.run s = .ok (rv, s')) :
    s'.tags = s.tags ++ if rv = .success then a.appended.toList else [] := by
  cases a with
  | refuse r =>
      cases h
      simp [appended]
  | append type cipher handler =>
      rcases capListAppend_eq_ok h with ⟨rfl, -, -, hlist, -⟩ | ⟨hrv, rfl⟩
      · simp [Caps.tags, hlist, appended, CapsEntry.tag, CapsEntry.new]
      · simp [hrv]
  | atEntry cipher act =>
      have htags : s'.tags = s.tags := by
        rcases run_atEntry_eq_ok h with ⟨-, -, rfl⟩ | ⟨e, e', vsCount, hlocate, hrun, rfl⟩
        · rfl
        · exact map_setFirst hlocate (EntryAction.run_tag hrun)
      simp [htags, appended]

/-- Where a call uses a member that is not the one of the entry's type. -/
theorem CapAction.run_wrongMember {a : CapAction} {s : Caps} {type : CapType} {m : Member}
    (h : a.run s = .error (.wrongMember type m)) :
    ∃ cipher op e, a = .atEntry cipher (.member m op) ∧ s.locate cipher = some e ∧
      e.capType = type ∧ type.member ≠ m := by
  cases a with
  | refuse r => cases h
  | append t cipher handler =>
      simp only [run, capListAppend] at h
      split at h
      · cases h
      · split at h <;> cases h
  | atEntry cipher act =>
      simp only [run] at h
      cases hlocate : s.locate cipher with
      | none =>
          rw [hlocate] at h
          cases h
      | some e =>
          simp only [hlocate] at h
          have hact : act.run (e, s.vsCount) = .error (.wrongMember type m) := by
            cases hrun : act.run (e, s.vsCount) with
            | error f =>
                rw [hrun] at h
                cases h
                rfl
            | ok out =>
                rw [hrun] at h
                cases h
          cases act with
          | refuse r => cases hact
          | prereq op =>
              obtain ⟨t, -, ht⟩ := Op.retrap_eq_error_iff.1 hact
              cases ht
          | member m' op =>
              simp only [EntryAction.run, viaMember] at hact
              split at hact
              · split at hact <;> cases hact
              · rename_i hm
                cases hact
                exact ⟨cipher, op, e, rfl, hlocate, rfl, fun heq => hm heq.symm⟩

/-! ## Failed calls -/

/-- The results after which a call may have changed the context. -/
def MayChange (rv : AmvpResult) : Prop := rv = .success ∨ rv = .mallocFail

instance (rv : AmvpResult) : Decidable (MayChange rv) := inferInstanceAs (Decidable (_ ∨ _))

/-- A failed call leaves the state alone. -/
abbrev CleanAt {τ σ : Type} (op : Op τ AmvpResult σ) (s : σ) : Prop := Op.CleanAt MayChange op s

/-- The content of the entry of a cipher, when its type has this member. -/
def Caps.content (s : Caps) (cipher : Cipher) (m : Member) : Option m.Data :=
  match s.locate cipher with
  | none => none
  | some e => if h : e.capType.member = m then some (h ▸ e.cap) else none

theorem cleanAt_uncounted_iff {σ : Type} {op : Setter σ} {s : σ × Int} :
    CleanAt (uncounted op) s ↔ CleanAt op s.1 :=
  Op.cleanAt_zoom_iff fun _ => by simp [Prod.ext_iff]

theorem cleanAt_viaMember_iff {e : CapsEntry} {op : Setter (e.capType.member.Data × Int)}
    {vsCount : Int} :
    CleanAt (viaMember e.capType.member op) (e, vsCount) ↔ CleanAt op (e.cap, vsCount) := by
  have hrun : ∀ rv d n, op (e.cap, vsCount) = .ok (rv, d, n) →
      viaMember e.capType.member op (e, vsCount) = .ok (rv, { e with cap := d }, n) := by
    intro rv d n hop
    simp [viaMember, hop]
  constructor
  · intro h rv s' hop
    rcases h rv _ (hrun rv s'.1 s'.2 hop) with hgood | heq
    · exact .inl hgood
    · cases e
      simp_all [Prod.ext_iff]
  · intro h rv s' hvia
    obtain ⟨hm, d, hop, hs'⟩ := viaMember_eq_ok hvia
    rcases h rv (d, s'.2) hop with hgood | heq
    · exact .inl hgood
    · obtain ⟨e', n⟩ := s'
      cases heq
      exact .inr (by rw [Prod.mk.injEq]; exact ⟨hs', rfl⟩)

/-- Working on an entry is clean exactly where the action is. -/
theorem CapAction.cleanAt_atEntry_iff {cipher : Cipher} {act : EntryAction} {s : Caps} :
    CleanAt (CapAction.atEntry cipher act).run s ↔
      ∀ e, s.locate cipher = some e → CleanAt act.run (e, s.vsCount) := by
  constructor
  · intro h e hlocate rv s' hact
    obtain ⟨e', n⟩ := s'
    have hrun : (CapAction.atEntry cipher act).run s = .ok (rv,
        { capsList := setFirst (fun e => e.cipher == cipher) e' s.capsList, vsCount := n }) := by
      simp [run, hlocate, hact, Except.map]
    rcases h _ _ hrun with hgood | heq
    · exact .inl hgood
    · have hlist := congrArg Caps.capsList heq
      have hcount := congrArg Caps.vsCount heq
      rw [setFirst_eq_self_iff hlocate] at hlist
      simp only at hcount
      exact .inr (by rw [hlist, hcount])
  · intro h rv s' hrun
    rcases run_atEntry_eq_ok hrun with ⟨-, -, rfl⟩ | ⟨e, e', n, hlocate, hact, rfl⟩
    · exact .inr rfl
    · rcases h e hlocate rv _ hact with hgood | heq
      · exact .inl hgood
      · cases heq
        rw [(setFirst_eq_self_iff hlocate).2 rfl]
        exact .inr rfl

/-- A call that works on a member is clean exactly where the work on the member is. -/
theorem CapAction.cleanAt_atEntry_member_iff {cipher : Cipher} {m : Member}
    {op : Setter (m.Data × Int)} {s : Caps} :
    CleanAt (CapAction.atEntry cipher (.member m op)).run s ↔
      ∀ d, s.content cipher m = some d → CleanAt op (d, s.vsCount) := by
  rw [cleanAt_atEntry_iff, Caps.content]
  cases hlocate : s.locate cipher with
  | none => simp
  | some e =>
      by_cases hm : e.capType.member = m
      · subst hm
        simp [EntryAction.run, cleanAt_viaMember_iff]
      · have hvia : CleanAt (EntryAction.member m op).run (e, s.vsCount) := by
          intro rv s' hact
          obtain ⟨hm', -⟩ := viaMember_eq_ok hact
          exact absurd hm'.symm hm
        simp [hm, hvia]

/-- A call that works on the prerequisites is clean exactly where that work is. -/
theorem CapAction.cleanAt_atEntry_prereq_iff {cipher : Cipher}
    {op : Setter (Int × List Prereq)} {s : Caps} :
    CleanAt (CapAction.atEntry cipher (.prereq op)).run s ↔
      ∀ e, s.locate cipher = some e → CleanAt op (e.hasPrereq, e.prereqVals) := by
  rw [cleanAt_atEntry_iff]
  refine forall₂_congr fun e _ => ?_
  refine Op.cleanAt_retrap_iff.trans (Op.cleanAt_zoom_iff fun d => ?_)
  cases e
  simp [Prod.ext_iff]

theorem CapAction.cleanAt_append {type : CapType} {cipher : Cipher} {handler : CryptoHandler}
    {s : Caps} : CleanAt (CapAction.append type cipher handler).run s := by
  intro rv s' h
  rcases capListAppend_eq_ok h with ⟨rfl, -⟩ | ⟨-, rfl⟩
  · exact .inl (.inl rfl)
  · exact .inr rfl

end LibAmvp
