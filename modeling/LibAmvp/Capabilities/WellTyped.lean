import LibAmvp.Capabilities.Calls

/-!
# Well-typed capability entries

Every cipher has one type of entry that describes it.  The entries of a context are well
typed when each has the type of its cipher; then the member that a setter picks from the
cipher it is given is the one that the entry was made with.  Some functions neither check
the cipher nor leave that to {lit}`amvp_cap_list_append`, so a run keeps the entries well
typed when its calls give these functions ciphers of their own family.

Main results:

- Theorem {lit}`Reached.ciphers_eq`: in any run, the list holds the ciphers that were
  enabled, each once and in order.
- Theorem {lit}`suits_iff_fits`: which calls use the member of the cipher's type.
- Theorem {lit}`reached_wellTyped`: runs of such calls keep every entry well typed and use
  no other member.
-/

namespace LibAmvp

/-! ## Enabled ciphers -/

/-- The cipher that a function of the interface enables. -/
def CapCall.enables : CapCall → Option Cipher
  | symCipherEnable cipher _ | hashEnable cipher _ | hmacEnable cipher _ | cmacEnable cipher _
  | kmacEnable cipher _ | drbgEnable cipher _ | rsaKeygenEnable cipher _ | rsaSigEnable cipher _
  | rsaPrimEnable cipher _ | ecdsaEnable cipher _ | dsaEnable cipher _ | kasEccEnable cipher _
  | kasFfcEnable cipher _ | kasIfcEnable cipher _ | ktsIfcEnable cipher _
  | safePrimesEnable cipher _ | kdaEnable cipher _ => some cipher
  | kdf135SnmpEnable _ => some .kdf135Snmp
  | kdf135SshEnable _ => some .kdf135Ssh
  | kdf135SrtpEnable _ => some .kdf135Srtp
  | kdf135Ikev2Enable _ => some .kdf135Ikev2
  | kdf135Ikev1Enable _ => some .kdf135Ikev1
  | kdf135X942Enable _ => some .kdf135X942
  | kdf135X963Enable _ => some .kdf135X963
  | kdf108Enable _ => some .kdf108
  | pbkdfEnable _ => some .pbkdf
  | kdfTls12Enable _ => some .kdfTls12
  | kdfTls13Enable _ => some .kdfTls13
  | _ => none

/-- The ciphers of the successful calls that enable one, in order. -/
def enabledCiphers (trace : List (CapCall × AmvpResult)) : List Cipher :=
  trace.filterMap fun step => if step.2 = .success then step.1.enables else none

/-- An action of a function that enables this cipher. -/
inductive EnableAction (cipher : Cipher) : CapAction → Prop
  | refuse {rv : AmvpResult} (h : rv ≠ .success) : EnableAction cipher (.refuse rv)
  | append (type : CapType) (handler : CryptoHandler) :
      EnableAction cipher (.append type cipher handler)

/-- A function that asks for a handler first enables what the rest enables. -/
theorem EnableAction.withHandler {cipher : Cipher} {handler : Option CryptoHandler}
    {act : CryptoHandler → CapAction} (h : ∀ handler, EnableAction cipher (act handler)) :
    EnableAction cipher (withHandler handler act) := by
  cases handler with
  | none => exact .refuse (by decide)
  | some handler => exact h handler

/-- A function that enables a cipher refuses, or appends an entry of that cipher. -/
theorem CapCall.enables_action {call : CapCall} {cipher : Cipher} (h : call.enables = some cipher) :
    EnableAction cipher call.action := by
  cases call <;> cases h <;> apply EnableAction.withHandler <;> intro handler <;>
    (try unfold internalCapRsaSigEnable) <;>
    repeat' first | exact .append .. | exact .refuse (by decide) | split

/-- The other functions append nothing. -/
theorem CapCall.appended_of_enables_eq_none {call : CapCall} (h : call.enables = none) :
    call.action.appended = none := by
  cases call <;> first | rfl | (cases h; done) | skip
  all_goals
    simp only [CapCall.action, capSetPrereq, capSymCipherSetDomain, capSymCipherSetParm,
      capHashSetParm, capHashSetDomain, capRsaSigverSetModParm, capRsaSiggenSetModParm,
      capEcdsaSetCurveHashAlg, capKdf135SnmpSetParm, capKdf135SnmpSetEngid,
      capKdf135SrtpSetParm, capKasEccSetPrereq, capKasEccSetParm, capKasEccSetScheme,
      capKasFfcSetPrereq, capKasFfcSetParm, capKdaSetParm]
    repeat' first | rfl | split

/-- A successful call appends an entry of the cipher it enables, and no other. -/
theorem CapCall.appended_of_success {call : CapCall} {s s' : Caps}
    (h : call.exec s = .ok (.success, s')) : call.action.appended.map Prod.fst = call.enables := by
  cases henables : call.enables with
  | none => rw [appended_of_enables_eq_none henables, Option.map_none]
  | some cipher =>
      have haction := enables_action henables
      rw [exec] at h
      cases haction' : call.action with
      | refuse rv =>
          rw [haction'] at h haction
          cases haction with
          | refuse hrv =>
              cases h
              exact absurd rfl hrv
      | append type c handler =>
          rw [haction'] at haction
          cases haction
          rfl
      | atEntry c act =>
          rw [haction'] at haction
          cases haction

/-- A further call enables its cipher when it succeeds. -/
theorem enabledCiphers_append (trace : List (CapCall × AmvpResult)) (call : CapCall)
    (rv : AmvpResult) :
    enabledCiphers (trace ++ [(call, rv)]) =
      enabledCiphers trace ++ if rv = .success then call.enables.toList else [] := by
  rw [enabledCiphers, List.filterMap_append, ← enabledCiphers]
  by_cases hrv : rv = .success
  · cases henables : call.enables <;> simp [hrv, henables]
  · simp [hrv]

/-- A call appends the cipher that it enables successfully. -/
theorem CapCall.exec_ciphers {call : CapCall} {s s' : Caps} {rv : AmvpResult}
    (h : call.exec s = .ok (rv, s')) :
    s'.capsList.map CapsEntry.cipher =
      s.capsList.map CapsEntry.cipher ++ if rv = .success then call.enables.toList else [] := by
  have htags := congrArg (List.map Prod.fst) (CapAction.run_tags h)
  simp only [Caps.tags, List.map_map, List.map_append, Function.comp_def, CapsEntry.tag] at htags
  rw [htags]
  by_cases hrv : rv = .success
  · subst hrv
    rw [if_pos rfl, if_pos rfl, ← appended_of_success h]
    cases call.action.appended <;> rfl
  · rw [if_neg hrv, if_neg hrv, List.map_nil]

/-- A call appends no cipher that the list has already. -/
theorem CapCall.exec_nodup {call : CapCall} {s s' : Caps} {rv : AmvpResult}
    (h : call.exec s = .ok (rv, s')) (hs : (s.capsList.map CapsEntry.cipher).Nodup) :
    (s'.capsList.map CapsEntry.cipher).Nodup := by
  rw [exec] at h
  cases haction : call.action with
  | refuse r =>
      rw [haction] at h
      cases h
      exact hs
  | append type cipher handler =>
      rw [haction] at h
      rcases capListAppend_eq_ok h with ⟨-, hlocate, -, hlist, -⟩ | ⟨-, rfl⟩
      · have hnew : cipher ∉ s.capsList.map CapsEntry.cipher := by
          intro hmem
          obtain ⟨e, he, rfl⟩ := List.mem_map.1 hmem
          have hnone := List.find?_eq_none.1 hlocate e he
          simp at hnone
        rw [hlist, List.map_append]
        exact List.nodup_append.2 ⟨hs, by simp, by simpa [CapsEntry.new] using hnew⟩
      · exact hs
  | atEntry cipher act =>
      rw [haction] at h
      have htags : s'.tags = s.tags := by simpa [CapAction.appended] using CapAction.run_tags h
      have hciphers := congrArg (List.map Prod.fst) htags
      simp only [Caps.tags, List.map_map, Function.comp_def, CapsEntry.tag] at hciphers
      rwa [hciphers]

namespace Reached

variable {allowed : Caps → CapCall → Prop} {trace : List (CapCall × AmvpResult)} {s : Caps}

/-- The entries of a context are in the order in which their ciphers were enabled. -/
theorem ciphers_eq (h : Reached allowed trace s) :
    s.capsList.map CapsEntry.cipher = enabledCiphers trace := by
  induction h with
  | start => rfl
  | call hs hallowed hexec ih => rw [CapCall.exec_ciphers hexec, enabledCiphers_append, ih]

/-- No cipher has two entries. -/
theorem ciphers_nodup (h : Reached allowed trace s) :
    (s.capsList.map CapsEntry.cipher).Nodup := by
  induction h with
  | start => exact List.nodup_nil
  | call hs hallowed hexec ih => exact CapCall.exec_nodup hexec ih

end Reached

/-! ## The family of a cipher -/

/-- The type of entry that describes a cipher. -/
def Cipher.family : Cipher → Option CapType
  | aesGcm | aesGcmSiv | aesCcm | aesEcb | aesCbc | aesCbcCs1 | aesCbcCs2 | aesCbcCs3
  | aesCfb1 | aesCfb8 | aesCfb128 | aesOfb | aesCtr | aesXts | aesKw | aesKwp | aesGmac
  | aesXpn
  | tdesEcb | tdesCbc | tdesCbci | tdesOfb | tdesOfbi | tdesCfb1 | tdesCfb8 | tdesCfb64
  | tdesCfbp1 | tdesCfbp8 | tdesCfbp64 | tdesCtr | tdesKw => some .sym
  | hashSha1 | hashSha224 | hashSha256 | hashSha384 | hashSha512 | hashSha512_224
  | hashSha512_256 | hashSha3_224 | hashSha3_256 | hashSha3_384 | hashSha3_512
  | hashShake128 | hashShake256 => some .hash
  | hashdrbg | hmacdrbg | ctrdrbg => some .drbg
  | hmacSha1 | hmacSha2_224 | hmacSha2_256 | hmacSha2_384 | hmacSha2_512
  | hmacSha2_512_224 | hmacSha2_512_256 | hmacSha3_224 | hmacSha3_256 | hmacSha3_384
  | hmacSha3_512 => some .hmac
  | cmacAes | cmacTdes => some .cmac
  | kmac128 | kmac256 => some .kmac
  | dsaKeygen | dsaPqggen | dsaPqgver | dsaSiggen | dsaSigver => some .dsa
  | rsaKeygen => some .rsaKeygen
  | rsaSiggen => some .rsaSiggen
  | rsaSigver => some .rsaSigver
  | rsaDecprim | rsaSigprim => some .rsaPrim
  | ecdsaKeygen => some .ecdsaKeygen
  | ecdsaKeyver => some .ecdsaKeyver
  | ecdsaSiggen => some .ecdsaSiggen
  | ecdsaSigver => some .ecdsaSigver
  | kdf135Snmp => some .kdf135Snmp
  | kdf135Ssh => some .kdf135Ssh
  | kdf135Srtp => some .kdf135Srtp
  | kdf135Ikev2 => some .kdf135Ikev2
  | kdf135Ikev1 => some .kdf135Ikev1
  | kdf135X942 => some .kdf135X942
  | kdf135X963 => some .kdf135X963
  | kdf108 => some .kdf108
  | pbkdf => some .pbkdf
  | kdfTls12 => some .kdfTls12
  | kdfTls13 => some .kdfTls13
  | kasEccCdh => some .kasEccCdh
  | kasEccComp => some .kasEccComp
  | kasEccNocomp => some .kasEccNocomp
  | kasEccSsc => some .kasEccSsc
  | kasFfcComp => some .kasFfcComp
  | kasFfcNocomp => some .kasFfcNocomp
  | kasFfcSsc => some .kasFfcSsc
  | kasIfcSsc => some .kasIfc
  | kdaOnestep => some .kdaOnestep
  | kdaTwostep => some .kdaTwostep
  | kdaHkdf => some .kdaHkdf
  | ktsIfc => some .ktsIfc
  | safePrimesKeygen => some .safePrimesKeygen
  | safePrimesKeyver => some .safePrimesKeyver
  | cipherStart | cipherEnd | other _ => none

/-- The member of the union that describes a cipher. -/
def Cipher.member (cipher : Cipher) : Option Member := cipher.family.map CapType.member

/-- Every entry has the type of its cipher. -/
def Caps.WellTyped (s : Caps) : Prop := ∀ e ∈ s.capsList, e.cipher.family = some e.capType

/-- The symmetric ciphers belong to their own family. -/
theorem Cipher.family_of_isSym {cipher : Cipher} (h : cipher.isSym) : cipher.family = some .sym := by
  cases cipher <;> first | rfl | cases h

/-- The hashes belong to their own family. -/
theorem Cipher.family_of_isHash {cipher : Cipher} (h : cipher.isHash) :
    cipher.family = some .hash := by
  cases cipher <;> first | rfl | cases h

/-- So do those of SHA-3. -/
theorem Cipher.family_of_isSha3 {cipher : Cipher} (h : cipher.isSha3) :
    cipher.family = some .hash := by
  cases cipher <;> first | rfl | cases h

/-- The HMACs belong to their own family. -/
theorem Cipher.family_of_isHmac {cipher : Cipher} (h : cipher.isHmac) :
    cipher.family = some .hmac := by
  cases cipher <;> first | rfl | cases h

/-- The ciphers of KAS-ECC use the member of that name. -/
theorem Cipher.member_of_isKasEcc {cipher : Cipher} (h : cipher.isKasEcc) :
    cipher.member = some .kasEccCap := by
  cases cipher <;> first | rfl | cases h

/-- The ciphers of KAS-FFC use the member of that name. -/
theorem Cipher.member_of_isKasFfc {cipher : Cipher} (h : cipher.isKasFfc) :
    cipher.member = some .kasFfcCap := by
  cases cipher <;> first | rfl | cases h

/-! ## Actions that fit -/

/-- The member through which an action works on an entry. -/
def EntryAction.uses : EntryAction → Option Member
  | .member m _ => some m
  | _ => none

/-- An action appends an entry of the cipher's type, and works on an entry through the
member of the cipher's type. -/
def CapAction.Fits (s : Caps) : CapAction → Prop
  | .refuse _ => True
  | .append type cipher _ =>
    (s.locate cipher).isNone → type.admits cipher → cipher.family = some type
  | .atEntry cipher act =>
    ∀ m, act.uses = some m → (s.locate cipher).isSome → cipher.member = some m

namespace CapAction

variable {s s' : Caps} {a : CapAction} {rv : AmvpResult}

/-- A context has the entries of a list of well-typed tags. -/
theorem wellTyped_iff_tags :
    s.WellTyped ↔ ∀ tag ∈ s.tags, tag.1.family = some tag.2 := by
  simp [Caps.WellTyped, Caps.tags, CapsEntry.tag]

/-- An action that fits keeps the entries well typed. -/
theorem Fits.run_wellTyped (hfits : a.Fits s) (hs : s.WellTyped) (h : a.run s = .ok (rv, s')) :
    s'.WellTyped := by
  rw [wellTyped_iff_tags] at hs ⊢
  cases a with
  | refuse r =>
      cases h
      exact hs
  | append type cipher handler =>
      rcases capListAppend_eq_ok h with ⟨-, hlocate, hadmits, hlist, -⟩ | ⟨-, rfl⟩
      · intro tag htag
        have hcases : tag ∈ s.tags ∨ tag = (cipher, type) := by
          simpa [Caps.tags, hlist, CapsEntry.tag, CapsEntry.new] using htag
        rcases hcases with hmem | rfl
        · exact hs tag hmem
        · exact hfits (by simp [hlocate]) hadmits
      · exact hs
  | atEntry cipher act =>
      have htags : s'.tags = s.tags := by simpa [appended] using run_tags h
      rwa [htags]

/-- An action that fits uses no other member than that of the entry's type. -/
theorem Fits.run_ne_wrongMember (hfits : a.Fits s) (hs : s.WellTyped) (type : CapType)
    (m : Member) : a.run s ≠ .error (.wrongMember type m) := by
  intro h
  obtain ⟨cipher, op, e, rfl, hlocate, rfl, hne⟩ := run_wrongMember h
  have hfamily := hs e (Caps.mem_of_locate hlocate)
  rw [Caps.locate_cipher hlocate] at hfamily
  have hmember := hfits m rfl (by simp [hlocate])
  rw [Cipher.member, hfamily] at hmember
  exact hne (by simpa using hmember)

/-- On well-typed entries the actions that fit are those that use no other member and keep
the entries well typed. -/
theorem fits_iff (hs : s.WellTyped) :
    a.Fits s ↔
      (∀ type m, a.run s ≠ .error (.wrongMember type m)) ∧
        ∀ rv s', a.run s = .ok (rv, s') → s'.WellTyped := by
  constructor
  · intro hfits
    exact ⟨hfits.run_ne_wrongMember hs, fun rv s' h => hfits.run_wellTyped hs h⟩
  · rintro ⟨hmember, htyped⟩
    cases a with
    | refuse r => trivial
    | append type cipher handler =>
        intro hnone hadmits
        have hrun : (append type cipher handler).run s = .ok (.success,
            { capsList := s.capsList ++ [.new type cipher handler]
              vsCount := s.vsCount + 1 }) := by
          rw [Option.isNone_iff_eq_none] at hnone
          simp [run, capListAppend, hnone, hadmits]
        exact htyped _ _ hrun (.new type cipher handler) (by simp)
    | atEntry cipher act =>
        intro m huses hsome
        obtain ⟨e, hlocate⟩ := Option.isSome_iff_exists.1 hsome
        have hfamily := hs e (Caps.mem_of_locate hlocate)
        rw [Caps.locate_cipher hlocate] at hfamily
        cases act with
        | refuse r => cases huses
        | prereq op => cases huses
        | member m' op =>
            cases huses
            rw [Cipher.member, hfamily, Option.map_some]
            by_contra hne
            refine hmember e.capType m ?_
            have hm : ¬ m = e.capType.member := fun heq => hne (by rw [heq])
            simp [run, hlocate, EntryAction.run, viaMember, hm, Except.map]

/-- A refusal touches no member. -/
@[simp]
theorem fits_refuse : (refuse rv).Fits s := trivial

/-- An entry of the type of its cipher's family fits. -/
theorem fits_append_of_family {type : CapType} {cipher : Cipher} {handler : CryptoHandler}
    (h : cipher.family = some type) : (append type cipher handler).Fits s :=
  fun _ _ => h

/-- A function that asks for a handler first fits when the rest does. -/
theorem fits_withHandler {handler : Option CryptoHandler} {act : CryptoHandler → CapAction}
    (h : ∀ handler, (act handler).Fits s) : (withHandler handler act).Fits s := by
  cases handler with
  | none => trivial
  | some handler => exact h handler

/-- A refusal after the lookup touches no member. -/
@[simp]
theorem fits_atEntry_refuse {cipher : Cipher} : (atEntry cipher (.refuse rv)).Fits s := by
  intro m hm
  cases hm

/-- Work on the prerequisites touches no member. -/
@[simp]
theorem fits_atEntry_prereq {cipher : Cipher} {op : Setter (Int × List Prereq)} :
    (atEntry cipher (.prereq op)).Fits s := by
  intro m hm
  cases hm

/-- Work on a member fits exactly when there is no entry or the member is the cipher's own. -/
@[simp]
theorem fits_atEntry_member_iff {cipher : Cipher} {m : Member} {op : Setter (m.Data × Int)} :
    (atEntry cipher (.member m op)).Fits s ↔
      (s.locate cipher).isNone ∨ cipher.member = some m := by
  constructor
  · intro h
    cases hlocate : s.locate cipher with
    | none => exact .inl rfl
    | some e => exact .inr (h m rfl (by simp [hlocate]))
  · rintro (h | h) m' hm' hsome
    · rw [Option.isNone_iff_eq_none] at h
      simp [h] at hsome
    · cases hm'
      exact h

/-- A test fits when each branch does under its condition. -/
theorem fits_ite {c : Prop} [Decidable c] {a b : CapAction} :
    (if c then a else b).Fits s ↔ (c → a.Fits s) ∧ (¬ c → b.Fits s) := by
  split <;> simp [*]

/-- So does a test after the lookup. -/
theorem fits_atEntry_ite {c : Prop} [Decidable c] {cipher : Cipher} {a b : EntryAction} :
    (atEntry cipher (if c then a else b)).Fits s ↔
      (c → (atEntry cipher a).Fits s) ∧ (¬ c → (atEntry cipher b).Fits s) := by
  split <;> simp [*]

end CapAction

/-! ## Calls that suit the context -/

/-- There is no entry of the cipher, or this member describes the cipher. -/
def Caps.Opens (s : Caps) (cipher : Cipher) (m : Member) : Prop :=
  (s.locate cipher).isNone ∨ cipher.member = some m

/-- No entry of this type is made unless the type describes the cipher. -/
def Caps.Makes (s : Caps) (type : CapType) (cipher : Cipher) (handler : Option CryptoHandler) :
    Prop :=
  handler = none ∨ (s.locate cipher).isSome ∨ cipher.family = some type

/-- The functions that take any cipher are given one of their own family, one without an
entry, or arguments that they refuse first. -/
def CapCall.Suits (s : Caps) : CapCall → Prop
  | drbgEnable cipher handler => s.Makes .drbg cipher handler
  | dsaEnable cipher handler => s.Makes .dsa cipher handler
  | hmacSetDomain cipher _ _ _ _ => s.Opens cipher .hmacCap
  | hmacSetParm cipher parm value =>
    validateHmacParmValue cipher parm value ≠ .success ∨ s.Opens cipher .hmacCap
  | cmacSetDomain cipher _ _ _ _ => s.Opens cipher .cmacCap
  | cmacSetParm cipher _ _ => s.Opens cipher .cmacCap
  | kmacSetDomain cipher _ _ _ _ => s.Opens cipher .kmacCap
  | kmacSetParm cipher _ _ => s.Opens cipher .kmacCap
  | drbgSetLength cipher _ _ _ _ _ _ => s.Opens cipher .drbgCap
  | drbgSetParm cipher _ _ _ _ => s.Opens cipher .drbgCap
  | dsaSetParm cipher _ _ _ => s.Opens cipher .dsaCap
  | kdf135SnmpSetParm kcap param value =>
    param ≠ .passLen ∨ value < kdf135SnmpPassLenMin ∨ value > kdf135SnmpPassLenMax ∨
      s.Opens kcap .kdf135SnmpCap
  | kdf135SnmpSetEngid kcap engid =>
    (∀ id, engid = some id → id.length > kdf135SnmpEngidMaxStr) ∨ s.Opens kcap .kdf135SnmpCap
  | kdf135SshSetParm kcap _ _ => s.Opens kcap .kdf135SshCap
  | kasEccSetPrereq cipher _ preReq _ =>
    preReq ∉ [.ccm, .cmac, .drbg, .ecdsa, .hmac, .sha] ∨ s.Opens cipher .kasEccCap
  | kasFfcSetPrereq cipher _ preReq _ =>
    preReq ∉ [.ccm, .cmac, .drbg, .dsa, .hmac, .sha, .safePrimes] ∨ s.Opens cipher .kasFfcCap
  | kasFfcSetScheme cipher _ _ _ _ => s.Opens cipher .kasFfcCap
  | kasIfcSetParm cipher _ _ => s.Opens cipher .kasIfcCap
  | kasIfcSetExponent cipher _ _ => s.Opens cipher .kasIfcCap
  | ktsIfcSetParm cipher _ _ => s.Opens cipher .ktsIfcCap
  | ktsIfcSetSchemeParm cipher _ _ _ => s.Opens cipher .ktsIfcCap
  | ktsIfcSetParamString cipher _ _ => s.Opens cipher .ktsIfcCap
  | ktsIfcSetSchemeString cipher _ _ _ => s.Opens cipher .ktsIfcCap
  | _ => True

/-! ## Functions that look at the cipher -/

section Fitting

open CapAction

variable {s : Caps} {rv : AmvpResult}

/-- The member of a cipher is that of its family's type. -/
theorem Cipher.member_of_family {cipher : Cipher} {type : CapType}
    (h : cipher.family = some type) : cipher.member = some type.member := by
  rw [member, h]
  rfl

/-- Work that uses no member but the cipher's own fits. -/
theorem fits_atEntry_of_uses {cipher : Cipher} {act : EntryAction}
    (h : ∀ m, act.uses = some m → cipher.member = some m) : (atEntry cipher act).Fits s :=
  fun m hm _ => h m hm

/-- Work on the cipher's own member fits. -/
theorem fits_member {cipher : Cipher} {m : Member} {op : Setter (m.Data × Int)}
    (h : cipher.member = some m) : (atEntry cipher (.member m op)).Fits s :=
  fits_atEntry_member_iff.2 (.inr h)

/-- A function may check a condition that puts the cipher into the family. -/
theorem fits_guarded {c : Prop} [Decidable c] {a : CapAction} (h : c → a.Fits s) :
    (if c then a else .refuse rv).Fits s :=
  fits_ite.2 ⟨h, fun _ => fits_refuse⟩

/-- Storing between two limits uses the one member it is given. -/
theorem storeBetween_uses {lower upper min max : Int} {m m' : Member} {f : m.Data → m.Data}
    (h : (storeBetween lower upper min max m f).uses = some m') : m' = m := by
  unfold storeBetween at h
  split at h
  · cases h
  · cases h
    rfl

/-- A parameter of a symmetric cipher is stored in the symmetric member. -/
theorem symCipherSetParm_uses {cipher : Cipher} {parm : SymCiphParm} {value : Int} {m : Member}
    (h : (symCipherSetParm cipher parm value).uses = some m) : m = .symCap := by
  cases parm <;> simp only [symCipherSetParm, symCipherAppendParm] at h <;>
    (try split at h) <;> first | cases h; rfl | cases h

/-- {lit}`amvp_cap_set_prereq` fits for every cipher. -/
theorem capSetPrereq_fits (cipher : Cipher) (preReqCap : PrereqAlg) (value : Option String) :
    (capSetPrereq cipher preReqCap value).Fits s := by
  cases value <;> simp [capSetPrereq, fits_ite]

/-- {lit}`amvp_cap_sym_cipher_set_parm` fits for every cipher. -/
theorem capSymCipherSetParm_fits (cipher : Cipher) (parm : SymCiphParm) (value : Int) :
    (capSymCipherSetParm cipher parm value).Fits s := by
  apply fits_guarded
  intro hsym
  apply fits_atEntry_of_uses
  intro m hm
  rw [symCipherSetParm_uses hm]
  exact Cipher.member_of_family (Cipher.family_of_isSym hsym)

/-- {lit}`amvp_cap_rsa_keygen_set_parm` fits. -/
theorem capRsaKeygenSetParm_fits (param : RsaParm) (value : Int) :
    (capRsaKeygenSetParm param value).Fits s := by
  cases param <;> simp [capRsaKeygenSetParm, fits_atEntry_ite, Cipher.member, Cipher.family,
    CapType.member]

/-- {lit}`amvp_cap_rsa_sigver_set_parm` fits. -/
theorem capRsaSigverSetParm_fits (param : RsaParm) (value : Int) :
    (capRsaSigverSetParm param value).Fits s := by
  cases param <;> simp [capRsaSigverSetParm, Cipher.member, Cipher.family, CapType.member]

/-- The parameters of the RSA primitives fit. -/
theorem capRsaPrimSetParm_fits (param : RsaParm) (value : Int) :
    (capRsaPrimSetParm param value).Fits s := by
  cases param <;> simp [capRsaPrimSetParm, fits_atEntry_ite, Cipher.member, Cipher.family,
    CapType.member]

/-- {lit}`amvp_cap_ecdsa_set_parm` fits for every cipher. -/
theorem capEcdsaSetParm_fits (cipher : Cipher) (param : EcdsaParm) (value : Int) :
    (capEcdsaSetParm cipher param value).Fits s := by
  cases cipher <;> first | exact fits_member rfl | exact fits_atEntry_refuse

/-- {lit}`amvp_cap_ecdsa_set_curve_hash_alg` fits for every cipher. -/
theorem capEcdsaSetCurveHashAlg_fits (cipher : Cipher) (curve alg : Int) :
    (capEcdsaSetCurveHashAlg cipher curve alg).Fits s := by
  refine fits_ite.2 ⟨fun _ => fits_refuse, fun _ => fits_guarded fun _ => ?_⟩
  cases cipher <;> first | exact fits_member rfl | exact fits_atEntry_refuse

/-- {lit}`amvp_cap_pbkdf_set_domain` fits. -/
theorem capPbkdfSetDomain_fits (param : PbkdfParm) (min max increment : Int) :
    (capPbkdfSetDomain param min max increment).Fits s := by
  refine fits_atEntry_ite.2 ⟨fun _ => fits_atEntry_refuse, fun _ => fits_atEntry_of_uses ?_⟩
  intro m hm
  cases param <;> first | rw [storeBetween_uses hm]; rfl | cases hm

/-- The domains of the IKEv2 KDF fit. -/
theorem capKdf135Ikev2SetDomain_fits (param : Kdf135Ikev2Parm) (min max increment : Int) :
    (capKdf135Ikev2SetDomain param min max increment).Fits s := by
  apply fits_atEntry_of_uses
  intro m hm
  cases param <;> first | rw [storeBetween_uses hm]; rfl | cases hm

/-- The domains of the IKEv1 KDF fit. -/
theorem capKdf135Ikev1SetDomain_fits (param : Kdf135Ikev1Parm) (min max increment : Int) :
    (capKdf135Ikev1SetDomain param min max increment).Fits s := by
  apply fits_atEntry_of_uses
  intro m hm
  cases param <;> first | rw [storeBetween_uses hm]; rfl | cases hm

/-- {lit}`amvp_cap_safe_primes_set_parm` fits for every cipher. -/
theorem capSafePrimesSetParm_fits (cipher : Cipher) (param : SafePrimesParam) (mode : Int) :
    (capSafePrimesSetParm cipher param mode).Fits s := by
  cases cipher <;> first | exact fits_member rfl | exact fits_atEntry_refuse

/-- {lit}`amvp_cap_kda_set_parm` fits for every cipher. -/
theorem capKdaSetParm_fits (cipher : Cipher) (param : KdaParm) (value : Int)
    (string : Option String) : (capKdaSetParm cipher param value string).Fits s := by
  refine fits_ite.2 ⟨fun _ => fits_refuse, fun _ => ?_⟩
  cases cipher <;> first | exact fits_member rfl | exact fits_atEntry_refuse

/-- {lit}`amvp_cap_kda_set_domain` fits for every cipher. -/
theorem capKdaSetDomain_fits (cipher : Cipher) (param : KdaParm) (min max increment : Int) :
    (capKdaSetDomain cipher param min max increment).Fits s := by
  cases cipher <;> first | exact fits_member rfl | exact fits_atEntry_refuse

/-- A function that enables the ciphers that {lit}`amvp_cap_list_append` lets have the
type. -/
theorem fits_append_of_admits {type : CapType} {cipher : Cipher} {handler : CryptoHandler}
    (h : type.admits cipher → cipher.family = some type) : (append type cipher handler).Fits s :=
  fun _ hadmits => h hadmits

/-- A function that neither looks at the cipher nor leaves that to
{lit}`amvp_cap_list_append`. -/
theorem fits_anyEnable_iff {type : CapType} {cipher : Cipher} {handler : Option CryptoHandler}
    (hadmits : type.admits cipher) :
    (withHandler handler fun handler => .append type cipher handler).Fits s ↔
      s.Makes type cipher handler := by
  cases handler with
  | none => simp [withHandler, Caps.Makes]
  | some handler =>
      rw [withHandler, Caps.Makes]
      cases hlocate : s.locate cipher with
      | none => simp [Fits, hlocate, hadmits]
      | some e => simp [Fits, hlocate]

/-- The functions that enable an algorithm make entries of the cipher's type when the call
suits the context, which all of them but two see to themselves. -/
theorem enable_fits {call : CapCall} {cipher : Cipher} (h : call.enables = some cipher)
    (hsuits : call.Suits s) : call.action.Fits s := by
  cases call with
  | drbgEnable c handler => exact (fits_anyEnable_iff rfl).2 hsuits
  | dsaEnable c handler => exact (fits_anyEnable_iff rfl).2 hsuits
  | symCipherEnable c handler =>
      refine fits_withHandler fun _ => fits_guarded fun hsym => ?_
      exact fits_append_of_family (Cipher.family_of_isSym hsym)
  | hashEnable c handler =>
      refine fits_withHandler fun _ => fits_guarded fun hhash => ?_
      exact fits_append_of_family (Cipher.family_of_isHash hhash)
  | hmacEnable c handler =>
      refine fits_withHandler fun _ => fits_guarded fun hhmac => ?_
      exact fits_append_of_family (Cipher.family_of_isHmac hhmac)
  | rsaKeygenEnable c handler =>
      refine fits_withHandler fun _ => fits_ite.2 ⟨fun _ => fits_refuse, fun hc => ?_⟩
      exact fits_append_of_family (by rw [not_not.1 hc]; rfl)
  | rsaPrimEnable c handler =>
      refine fits_withHandler fun _ => fits_ite.2 ⟨fun _ => fits_refuse, fun _ => ?_⟩
      refine fits_append_of_admits fun hadmits => ?_
      rcases (by simpa [CapType.admits] using hadmits) with rfl | rfl <;> rfl
  | kasIfcEnable c handler =>
      refine fits_withHandler fun _ => fits_append_of_admits fun hadmits => ?_
      rw [of_decide_eq_true hadmits]
      rfl
  | ktsIfcEnable c handler =>
      refine fits_withHandler fun _ => fits_append_of_admits fun hadmits => ?_
      rw [of_decide_eq_true hadmits]
      rfl
  | cmacEnable | kmacEnable | rsaSigEnable | ecdsaEnable | kasEccEnable | kasFfcEnable
  | safePrimesEnable | kdaEnable =>
      apply fits_withHandler
      intro handler
      split <;> first | exact fits_append_of_family rfl | exact fits_refuse
  | _ => first | exact fits_withHandler fun _ => fits_append_of_family rfl | cases h

/-- Which calls fit: two functions that enable an algorithm and twenty-one that set
something take any cipher. -/
theorem suits_iff_fits (call : CapCall) : call.Suits s ↔ call.action.Fits s := by
  cases call with
  | drbgEnable cipher handler => exact (fits_anyEnable_iff rfl).symm
  | dsaEnable cipher handler => exact (fits_anyEnable_iff rfl).symm
  | hmacSetParm cipher parm value =>
      simp only [CapCall.Suits, CapCall.action, capHmacSetParm, hmacSetParm]
      cases parm <;> simp [fits_atEntry_ite, Caps.Opens, validateHmacParmValue] <;> tauto
  | kdf135SnmpSetParm kcap param value =>
      simp only [CapCall.Suits, CapCall.action, capKdf135SnmpSetParm, fits_ite,
        fits_atEntry_member_iff, fits_refuse, Caps.Opens]
      tauto
  | kdf135SnmpSetEngid kcap engid =>
      cases engid <;>
        simp [CapCall.Suits, CapCall.action, capKdf135SnmpSetEngid, fits_ite, Caps.Opens,
          or_iff_not_imp_left]
  | kasEccSetPrereq cipher mode preReq value =>
      simp only [CapCall.Suits, CapCall.action, capKasEccSetPrereq, fits_ite,
        fits_atEntry_member_iff, fits_refuse, Caps.Opens]
      tauto
  | kasFfcSetPrereq cipher mode preReq value =>
      simp only [CapCall.Suits, CapCall.action, capKasFfcSetPrereq, fits_ite,
        fits_atEntry_member_iff, fits_refuse, Caps.Opens]
      tauto
  -- the functions that work on a member whatever the cipher is
  | hmacSetDomain | cmacSetDomain | cmacSetParm | kmacSetDomain | kmacSetParm | drbgSetLength
  | drbgSetParm | dsaSetParm | kdf135SshSetParm | kasFfcSetScheme | kasIfcSetParm
  | kasIfcSetExponent | ktsIfcSetParm | ktsIfcSetSchemeParm | ktsIfcSetParamString
  | ktsIfcSetSchemeString => exact fits_atEntry_member_iff.symm
  -- the functions that check the cipher, or have one of their own
  | setPrereq cipher preReqCap value =>
      exact iff_of_true trivial (capSetPrereq_fits cipher preReqCap value)
  | symCipherSetDomain cipher parm min max increment =>
      refine iff_of_true trivial (fits_guarded fun hsym => fits_member ?_)
      exact Cipher.member_of_family (Cipher.family_of_isSym hsym)
  | symCipherSetParm cipher parm value =>
      exact iff_of_true trivial (capSymCipherSetParm_fits cipher parm value)
  | hashSetParm cipher param value =>
      refine iff_of_true trivial (fits_guarded fun hsha3 => fits_member ?_)
      exact Cipher.member_of_family (Cipher.family_of_isSha3 hsha3)
  | hashSetDomain cipher parm min max increment =>
      refine iff_of_true trivial (fits_guarded fun hhash => fits_member ?_)
      exact Cipher.member_of_family (Cipher.family_of_isHash hhash)
  | rsaKeygenSetParm param value =>
      exact iff_of_true trivial (capRsaKeygenSetParm_fits param value)
  | rsaSigverSetParm param value =>
      exact iff_of_true trivial (capRsaSigverSetParm_fits param value)
  | rsaPrimSetParm param value => exact iff_of_true trivial (capRsaPrimSetParm_fits param value)
  | rsaSigverSetModParm | rsaSiggenSetModParm =>
      exact iff_of_true trivial (fits_ite.2 ⟨fun _ => fits_refuse, fun _ => fits_member rfl⟩)
  | ecdsaSetParm cipher param value =>
      exact iff_of_true trivial (capEcdsaSetParm_fits cipher param value)
  | ecdsaSetCurveHashAlg cipher curve alg =>
      exact iff_of_true trivial (capEcdsaSetCurveHashAlg_fits cipher curve alg)
  | pbkdfSetDomain param min max increment =>
      exact iff_of_true trivial (capPbkdfSetDomain_fits param min max increment)
  | kdf135SrtpSetParm cipher param value =>
      refine iff_of_true trivial (fits_ite.2 ⟨fun _ => fits_refuse, fun hsrtp => ?_⟩)
      rw [not_not] at hsrtp
      exact fits_member (by rw [hsrtp]; rfl)
  | kdf108SetDomain mode param min max increment =>
      exact iff_of_true trivial
        (fits_atEntry_ite.2 ⟨fun _ => fits_atEntry_refuse, fun _ => fits_member rfl⟩)
  | kdf135Ikev2SetDomain param min max increment =>
      exact iff_of_true trivial (capKdf135Ikev2SetDomain_fits param min max increment)
  | kdf135Ikev1SetDomain param min max increment =>
      exact iff_of_true trivial (capKdf135Ikev1SetDomain_fits param min max increment)
  | kasEccSetParm cipher mode param value | kasEccSetScheme cipher mode scheme param option value =>
      exact iff_of_true trivial
        (fits_guarded fun hecc => fits_member (Cipher.member_of_isKasEcc hecc))
  | kasFfcSetParm cipher mode param value =>
      exact iff_of_true trivial
        (fits_guarded fun hffc => fits_member (Cipher.member_of_isKasFfc hffc))
  | safePrimesSetParm cipher param mode =>
      exact iff_of_true trivial (capSafePrimesSetParm_fits cipher param mode)
  | kdaSetParm cipher param value string =>
      exact iff_of_true trivial (capKdaSetParm_fits cipher param value string)
  | kdaSetDomain cipher param min max increment =>
      exact iff_of_true trivial (capKdaSetDomain_fits cipher param min max increment)
  | _ =>
      first
      | exact iff_of_true trivial (enable_fits rfl trivial)
      | exact iff_of_true trivial (fits_member rfl)

end Fitting

/-! ## Runs -/

/-- In a run of calls that suit, every entry is well typed. -/
theorem Reached.wellTyped {trace : List (CapCall × AmvpResult)} {s : Caps}
    (h : Reached CapCall.Suits trace s) : s.WellTyped := by
  induction h with
  | start =>
      intro e he
      cases he
  | call hs hsuits hexec ih =>
      exact ((suits_iff_fits _).1 hsuits).run_wellTyped ih hexec

/-- A run whose calls suit their contexts: the list holds no cipher twice, its entries are in
the order in which they were enabled, and every entry has the type of its cipher.  The
calls that suit the context the run ends in are those that use no other member than that
of the entry's type and leave every entry with the type of its cipher. -/
theorem reached_wellTyped {trace : List (CapCall × AmvpResult)} {s : Caps}
    (h : Reached CapCall.Suits trace s) :
    (s.capsList.map CapsEntry.cipher).Nodup ∧
      s.capsList.map CapsEntry.cipher = enabledCiphers trace ∧
      (∀ e ∈ s.capsList, e.cipher.family = some e.capType) ∧
      ∀ call : CapCall, call.Suits s ↔
        (∀ type m, call.exec s ≠ .error (.wrongMember type m)) ∧
          ∀ rv s', call.exec s = .ok (rv, s') →
            ∀ e ∈ s'.capsList, e.cipher.family = some e.capType := by
  refine ⟨h.ciphers_nodup, h.ciphers_eq, h.wellTyped, ?_⟩
  intro call
  exact (suits_iff_fits call).trans (CapAction.fits_iff h.wellTyped)

/-- The calls of a small run: a generator is enabled, and a range of it is set. -/
def drbgCalls : List (CapCall × AmvpResult) :=
  [(.drbgEnable .ctrdrbg (some ⟨1⟩), .success),
    (.drbgSetLength .ctrdrbg 1 1 .entropyLen 128 64 256, .success)]

/-- The statement at a run that enables a DRBG and then sets one of its lengths. -/
theorem reached_wellTyped_drbgCalls :
    ∃ s, Reached CapCall.Suits drbgCalls s ∧
      s.capsList.map CapsEntry.cipher = [.ctrdrbg] ∧
      ∀ e ∈ s.capsList, e.cipher.family = some e.capType := by
  have henable : Reached CapCall.Suits [(.drbgEnable .ctrdrbg (some ⟨1⟩), .success)] _ :=
    @Reached.call _ [] _ _ (.drbgEnable .ctrdrbg (some ⟨1⟩)) _ .start (.inr (.inr rfl)) rfl
  have hlength : Reached CapCall.Suits drbgCalls _ :=
    @Reached.call _ _ _ _ (.drbgSetLength .ctrdrbg 1 1 .entropyLen 128 64 256) _ henable
      (.inr rfl) rfl
  exact ⟨_, hlength, (reached_wellTyped hlength).2.1, (reached_wellTyped hlength).2.2.1⟩

/-- A cipher of the wrong family: the entry of AES-GCM is made as that of a generator, and
the next function that works on AES-GCM uses it as that of a cipher. -/
theorem not_reached_wellTyped :
    ∃ s, Reached (fun _ _ => True) [(.drbgEnable .aesGcm (some ⟨1⟩), .success)] s ∧
      (∃ e ∈ s.capsList, e.cipher = .aesGcm ∧ e.capType = .drbg) ∧
      (CapCall.symCipherSetParm .aesGcm .parmDir 3).exec s =
        .error (.wrongMember .drbg .symCap) := by
  exact ⟨_, @Reached.call _ [] _ _ (.drbgEnable .aesGcm (some ⟨1⟩)) _ .start trivial rfl,
    ⟨_, List.mem_singleton_self _, rfl, rfl⟩, rfl⟩

end LibAmvp
