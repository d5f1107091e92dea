import LibAmvp.Kat.ShakeLengths

/-!
# Monte Carlo tests of hash functions

The three Monte Carlo loops against the recurrences that they are meant to follow.  A module
computes a hash function, a function from a message and a length to a digest of that length.

Main results:

- Theorem {lit}`hashMct_standard`: the results of the loops are the digests of the recurrences.
- Theorem {lit}`hashKatHandler_mct`: so are the answers of the handler.
-/

namespace LibAmvp

open Guard

/-! ## Hash functions and modules -/

/-- A hash function, with the length of its digests where no other one is asked for. -/
structure HashFunction where
  digest : List UInt8 → Nat → List UInt8
  length_digest : ∀ msg n, (digest msg n).length = n
  size : Nat
  size_le : size ≤ hashMdByteMax

/-- The algorithms of {lit}`amvp_hash_mct_tc`. -/
def isShaMct (cipher : Cipher) : Bool := !isSha3Mct cipher && !cipher.isShake

/-- What a module hashes: the Monte Carlo tests of SHA-1 and SHA-2 have messages in three
parts. -/
def HashTc.message (tc : HashTc) : List UInt8 :=
  if tc.testType = .mct ∧ isShaMct tc.cipher then
    tc.m1.read tc.msgLen ++ tc.m2.read tc.msgLen ++ tc.m3.read tc.msgLen
  else tc.msg.read tc.msgLen

namespace HashFunction

variable (H : HashFunction)

/-- The digest of the length that the hash function has by itself. -/
def hash (msg : List UInt8) : List UInt8 := H.digest msg H.size

/-- A digest has the size of the function. -/
@[simp]
theorem length_hash (msg : List UInt8) : (H.hash msg).length = H.size :=
  H.length_digest msg H.size

/-- The digest that a test case asks for. -/
def digestOf (tc : HashTc) : List UInt8 :=
  H.digest tc.message (if tc.cipher.isShake then tc.xofLen else H.size)

/-- A module computes the hash function: it writes the digest and its length, and nothing else. -/
def Implements (p : Partner HashTc) : Prop :=
  ∀ before tc, ∃ md mdLen, p before tc = (0, { tc with md := md, mdLen := mdLen }) ∧
    md.read mdLen = H.digestOf tc

/-- Outside the SHA procedure the message is the single text of the test case. -/
theorem message_of_not_sha {tc : HashTc} (h : isShaMct tc.cipher = false) :
    tc.message = tc.msg.read tc.msgLen := by
  simp [HashTc.message, h]

/-! ## The recurrences -/

/-- The digests of a round of SHA-1 or SHA-2: each is that of the three before. -/
def shaDigest (seed : List UInt8) : Nat → List UInt8
  | 0 => seed
  | 1 => seed
  | 2 => seed
  | i + 3 => H.hash (shaDigest seed i ++ shaDigest seed (i + 1) ++ shaDigest seed (i + 2))

/-- The seed of a round of SHA-1 or SHA-2. -/
def shaSeed (seed : List UInt8) : Nat → List UInt8
  | 0 => seed
  | j + 1 => H.shaDigest (shaSeed seed j) 1002

/-- The seed of a round of SHA-3. -/
def sha3Seed (seed : List UInt8) : Nat → List UInt8
  | 0 => seed
  | j + 1 => H.hash^[1000] (sha3Seed seed j)

/-- A step of an extendable-output function: a message and the length of its digest. -/
structure ShakeStep where
  msg : List UInt8
  outLen : Nat

/-- The digest of a step. -/
def shakeDigest (step : ShakeStep) : List UInt8 := H.digest step.msg step.outLen

end HashFunction

/-- The leftmost 128 bits, with zeros behind a digest that is shorter. -/
def leftmost128 (out : List UInt8) : List UInt8 :=
  out.take 16 ++ List.replicate (16 - out.length) 0

/-- The last 16 bits as a number, the high byte first. -/
def rightmost16 (out : List UInt8) : Nat :=
  256 * (out.getD (out.length - 2) 0).toNat + (out.getD (out.length - 1) 0).toNat

namespace HashFunction

variable (H : HashFunction)

/-- The step after a step, with the bounds of the lengths in bytes. -/
def shakeNext (minBytes maxBytes : Nat) (step : ShakeStep) : ShakeStep where
  msg := leftmost128 (H.shakeDigest step)
  outLen := minBytes + rightmost16 (H.shakeDigest step) % (maxBytes - minBytes + 1)

/-- The steps of a test, counted over all rounds. -/
def shakeStep (minBytes maxBytes : Nat) (seed : List UInt8) (k : Nat) : ShakeStep :=
  (H.shakeNext minBytes maxBytes)^[k] ⟨seed, maxBytes⟩

end HashFunction

/-- An object of {lit}`resultsArray`. -/
def digestEntry (md : List UInt8) : JsonObject :=
  jsonObjectSetText [] "md" (some (String.ofList (hexDigits md)))

/-! ## Digests in test cases -/

/-- A module that is never refused anything. -/
def hashSetting (p : Partner HashTc) : Setting HashTc HashStop Unit where
  partner := p
  state _ := ()

/-- The answer of a round is its digest. -/
theorem hashOutputMctTc_ok {stc : HashTc} {md : List UInt8} (hmd : stc.md.read stc.mdLen = md)
    (hlen : 2 * stc.mdLen ≤ if stc.cipher.isShake then hashXofMdStrMax else hashMdStrMax) :
    hashOutputMctTc stc = .ok (digestEntry md) := by
  have hmax : (if stc.cipher.isShake then hashXofMdStrMax else hashMdStrMax) < 2 ^ 31 := by
    split <;> decide
  rw [hashOutputMctTc, setMemory_ok hlen hmax, hmd]
  rfl

/-- Digests of the length that the hash function has by itself can be shown. -/
theorem two_mul_size_le (H : HashFunction) (cipher : Cipher) :
    2 * H.size ≤ if cipher.isShake then hashXofMdStrMax else hashMdStrMax := by
  have hsize := H.size_le
  unfold hashMdByteMax at hsize
  split <;> (first | unfold hashXofMdStrMax | unfold hashMdStrMax) <;> omega

/-! ## SHA-1 and SHA-2 -/

namespace HashFunction

variable {H : HashFunction} {p : Partner HashTc} {seed : List UInt8}

/-- The three parts of the message are the last three digests. -/
structure ShaAt (H : HashFunction) (seed : List UInt8) (i : Nat) (stc : HashTc) : Prop where
  mct : stc.testType = .mct
  sha : isShaMct stc.cipher
  msgLen : stc.msgLen = H.size
  m1 : stc.m1.read H.size = H.shaDigest seed i
  m2 : stc.m2.read H.size = H.shaDigest seed (i + 1)
  m3 : stc.m3.read H.size = H.shaDigest seed (i + 2)
  md : 0 < i → stc.md.read stc.mdLen = H.shaDigest seed (i + 2)

/-- The digest of the next call is the next one of the recurrence. -/
theorem ShaAt.digestOf {i : Nat} {stc : HashTc} (h : ShaAt H seed i stc) :
    H.digestOf stc = H.shaDigest seed (i + 3) := by
  have hshake : stc.cipher.isShake = false := by
    have hsha := h.sha
    simp only [isShaMct, Bool.and_eq_true, Bool.not_eq_true'] at hsha
    exact hsha.2
  rw [HashFunction.digestOf, HashTc.message, if_pos ⟨h.mct, h.sha⟩, h.msgLen, h.m1, h.m2, h.m3,
    hshake]
  rfl

/-- A digest moves the parts of the message on. -/
theorem ShaAt.next {i : Nat} {stc : HashTc} (h : ShaAt H seed i stc) {md : Memory} {mdLen : Nat}
    (hmd : md.read mdLen = H.digestOf stc) :
    ShaAt H seed (i + 1) (hashMctIterateTc { stc with md := md, mdLen := mdLen }) := by
  rw [h.digestOf] at hmd
  have hlen : mdLen = H.size := by
    rw [← Memory.read_length md mdLen, hmd]
    exact H.length_hash _
  subst hlen
  have hfits := H.size_le
  refine ⟨h.mct, h.sha, h.msgLen, ?_, ?_, ?_, fun _ => hmd⟩
  · exact (Memory.read_copy stc.m1 stc.m2 hfits).trans h.m2
  · exact (Memory.read_copy stc.m2 stc.m3 hfits).trans h.m3
  · exact (Memory.read_copy stc.m3 md hfits).trans hmd

/-- The inner loop computes the recurrence, by induction on the calls left. -/
theorem runs_hashMctCalls (hp : H.Implements p) :
    ∀ (n i : Nat) (stc : HashTc), ShaAt H seed i stc →
      (hashSetting p).Runs () (hashMctCalls n stc) fun stc' _ => ShaAt H seed (i + n) stc' := by
  intro n
  induction n with
  | zero => exact fun i stc h => Setting.runs_pure h
  | succ n ih =>
    intro i stc h
    rw [hashMctCalls]
    refine Setting.runs_ask_bind trivial fun before _ => ?_
    obtain ⟨md, mdLen, hreply, hmd⟩ := hp before stc
    rw [show (hashSetting p).partner before stc = _ from hreply]
    refine Setting.runs_ite (fun hcode => absurd rfl hcode) fun _ => ?_
    rw [← Nat.add_assoc, Nat.add_right_comm]
    exact ih (i + 1) _ (h.next hmd)

/-- A round starts from the last digest of the round before. -/
theorem ShaAt.restart {stc : HashTc} (h : ShaAt H seed 1000 stc) :
    ShaAt H (H.shaDigest seed 1002) 0 { stc with
      m1 := stc.m1.copy 0 hashMdByteMax stc.m3 0 stc.msgLen
      m2 := stc.m2.copy 0 hashMdByteMax stc.m3 0 stc.msgLen } := by
  have hfits := H.size_le
  refine ⟨h.mct, h.sha, h.msgLen, ?_, ?_, h.m3, fun hpos => absurd hpos (Nat.lt_irrefl 0)⟩
  · exact h.msgLen ▸ (Memory.read_copy stc.m1 stc.m3 hfits).trans h.m3
  · exact h.msgLen ▸ (Memory.read_copy stc.m2 stc.m3 hfits).trans h.m3

/-- The outer loop answers the seeds, by induction on the rounds left. -/
theorem runs_hashMctRounds (hp : H.Implements p) :
    ∀ (n j : Nat) (stc : HashTc), ShaAt H (H.shaSeed seed j) 0 stc →
      (hashSetting p).Runs () (hashMctRounds n stc) fun results _ =>
        results = (List.range' j n).map fun j => digestEntry (H.shaSeed seed (j + 1)) := by
  intro n
  induction n with
  | zero => exact fun j stc h => Setting.runs_pure rfl
  | succ n ih =>
    intro j stc h
    rw [hashMctRounds]
    refine (runs_hashMctCalls hp hashMctInner 0 stc h).bind fun stc' _ h' => ?_
    rw [Nat.zero_add] at h'
    have hmd := h'.md (by decide)
    have hout : hashOutputMctTc stc' = .ok (digestEntry (H.shaSeed seed (j + 1))) := by
      refine hashOutputMctTc_ok hmd ?_
      rw [← Memory.read_length stc'.md stc'.mdLen, hmd, hashMctInner]
      exact (congrArg (2 * ·) (H.length_hash _)).trans_le (two_mul_size_le H _)
    rw [hout]
    refine Setting.runs_ofExcept_bind (fun obj hobj => ?_) fun _ he => by cases he
    obtain rfl := Except.ok.inj hobj
    exact (ih (j + 1) _ h'.restart).bind fun results _ hresults =>
      Setting.runs_pure (by rw [hresults, List.range'_succ, List.map_cons])

/-- The parts of the first message are the seed. -/
theorem hashMctTc_standard (hp : H.Implements p) {stc : HashTc} (hmct : stc.testType = .mct)
    (hsha : isShaMct stc.cipher) (hseed : stc.msgLen = H.size) :
    (hashSetting p).Runs () (hashMctTc stc) fun results _ =>
      results = (List.range 100).map fun j =>
        digestEntry (H.shaSeed (stc.msg.read stc.msgLen) (j + 1)) := by
  have hfits : stc.msgLen ≤ hashMdByteMax := hseed.trans_le H.size_le
  rw [List.range_eq_range', hashMctTc]
  refine runs_hashMctRounds hp 100 0 _ ⟨hmct, hsha, hseed, ?_, ?_, ?_,
    fun hpos => absurd hpos (Nat.lt_irrefl 0)⟩ <;> rw [← hseed]
  · exact Memory.read_copy stc.m1 stc.msg hfits
  · exact Memory.read_copy stc.m2 stc.msg hfits
  · exact Memory.read_copy stc.m3 stc.msg hfits

/-! ## SHA-3 -/

/-- The message of the next iteration is the digest of the one before. -/
structure Sha3At (H : HashFunction) (seed : List UInt8) (i : Nat) (stc : HashTc) : Prop where
  sha3 : isSha3Mct stc.cipher
  msg : stc.msg.read stc.msgLen = H.hash^[i] seed
  md : 0 < i → stc.md.read stc.mdLen = H.hash^[i] seed

/-- The procedure of SHA-3 is not used for SHAKE. -/
theorem isSha3Mct_isShake {cipher : Cipher} (h : isSha3Mct cipher) : cipher.isShake = false := by
  revert h
  cases cipher <;> simp [isSha3Mct, Cipher.isShake]

/-- The digest of the next call is one more iteration of the function. -/
theorem Sha3At.digestOf {i : Nat} {stc : HashTc} (h : Sha3At H seed i stc) (md : Memory) :
    H.digestOf { stc with md := md } = H.hash^[i + 1] seed := by
  have hsha : isShaMct stc.cipher = false := by simp [isShaMct, h.sha3]
  have hmessage : ({ stc with md := md } : HashTc).message = stc.msg.read stc.msgLen :=
    message_of_not_sha hsha
  rw [Function.iterate_succ_apply', ← h.msg, HashFunction.digestOf, hmessage,
    if_neg (by simp [isSha3Mct_isShake h.sha3])]
  rfl

/-- The digest becomes the message. -/
theorem Sha3At.next {i : Nat} {stc : HashTc} (h : Sha3At H seed i stc) {md : Memory} {mdLen : Nat}
    (hmd : md.read mdLen = H.hash^[i + 1] seed) :
    Sha3At H seed (i + 1) (hashSha3Feed { stc with md := md, mdLen := mdLen }) := by
  have hlen : mdLen = H.size := by
    rw [← Memory.read_length md mdLen, hmd, Function.iterate_succ_apply']
    exact H.length_hash _
  have hfits : mdLen ≤ hashMsgByteMax := hlen.trans_le (H.size_le.trans (by decide))
  exact ⟨h.sha3, (Memory.read_copy _ md hfits).trans hmd, fun _ => hmd⟩

/-- What an iteration starts from, the last digest of which is still to become the message. -/
def Sha3Before (H : HashFunction) (seed : List UInt8) (i : Nat) (stc : HashTc) : Prop :=
  Sha3At H seed i (if i ≠ 0 then hashSha3Feed stc else stc)

/-- The inner loop iterates the function, by induction on the calls left. -/
theorem runs_hashSha3Calls (hp : H.Implements p) :
    ∀ (n i : Nat) (stc : HashTc), i + n = hashMctInner + 1 → i ≤ hashMctInner →
      Sha3Before H seed i stc → (hashSetting p).Runs () (hashSha3Calls n i stc) fun stc' _ =>
        Sha3At H seed hashMctInner stc' := by
  intro n
  induction n with
  | zero => exact fun i stc hn hi => by omega
  | succ n ih =>
    intro i stc hn hle h
    rw [hashSha3Calls]
    unfold Sha3Before at h
    generalize (if i ≠ 0 then hashSha3Feed stc else stc) = fed at h
    refine Setting.runs_ite (fun hi => Setting.runs_pure (hi ▸ h)) fun hi => ?_
    refine Setting.runs_ask_bind trivial fun before _ => ?_
    obtain ⟨md, mdLen, hreply, hmd⟩ := hp before { fed with md := fed.md.clear hashMdByteMax }
    rw [show (hashSetting p).partner before _ = _ from hreply]
    refine Setting.runs_ite (fun hcode => absurd rfl hcode) fun _ => ?_
    rw [h.digestOf] at hmd
    refine ih (i + 1) _ (by omega) (by omega) ?_
    rw [Sha3Before, if_pos (Nat.succ_ne_zero i)]
    exact h.next hmd

/-- The outer loop answers the seeds, by induction on the rounds left. -/
theorem runs_hashSha3Rounds (hp : H.Implements p) :
    ∀ (n j : Nat) (stc : HashTc), isSha3Mct stc.cipher →
      stc.msg.read stc.msgLen = H.sha3Seed seed j →
      (hashSetting p).Runs () (hashSha3Rounds n stc) fun results _ =>
        results = (List.range' j n).map fun j => digestEntry (H.sha3Seed seed (j + 1)) := by
  intro n
  induction n with
  | zero => exact fun j stc _ _ => Setting.runs_pure rfl
  | succ n ih =>
    intro j stc hsha3 hmsg
    rw [hashSha3Rounds]
    have hstart : Sha3Before H (H.sha3Seed seed j) 0 stc :=
      ⟨hsha3, hmsg, fun hpos => absurd hpos (Nat.lt_irrefl 0)⟩
    refine (runs_hashSha3Calls hp _ 0 stc (Nat.zero_add _) (Nat.zero_le _) hstart).bind
      fun stc' _ h' => ?_
    have hmd := h'.md (by decide)
    have hout : hashOutputMctTc stc' = .ok (digestEntry (H.sha3Seed seed (j + 1))) := by
      refine hashOutputMctTc_ok hmd ?_
      rw [← Memory.read_length stc'.md stc'.mdLen, hmd, hashMctInner, Function.iterate_succ_apply',
        H.length_hash]
      exact two_mul_size_le H _
    rw [hout]
    refine Setting.runs_ofExcept_bind (fun obj hobj => ?_) fun _ he => by cases he
    obtain rfl := Except.ok.inj hobj
    exact (ih (j + 1) _ h'.sha3 h'.msg).bind fun results _ hresults =>
      Setting.runs_pure (by rw [hresults, List.range'_succ, List.map_cons])

/-- The procedure of SHA-3 answers the hundred seeds of the standard. -/
theorem hashSha3Mct_standard (hp : H.Implements p) {stc : HashTc} (hsha3 : isSha3Mct stc.cipher) :
    (hashSetting p).Runs () (hashSha3Mct stc) fun results _ =>
      results = (List.range 100).map fun j =>
        digestEntry (H.sha3Seed (stc.msg.read stc.msgLen) (j + 1)) := by
  rw [List.range_eq_range', hashSha3Mct]
  exact runs_hashSha3Rounds hp 100 0 stc hsha3 rfl

end HashFunction

/-! ## Extendable-output functions -/

/-- Swapping two bytes. -/
theorem swap16_bytes {a b : Nat} (ha : a < 256) (hb : b < 256) :
    swap16 (a + 256 * b) = 256 * a + b := by
  have hhigh : (a + 256 * b) >>> 8 = b := by
    rw [Nat.shiftRight_eq_div_pow]
    omega
  have hlow : (a + 256 * b) <<< 8 + b = b ||| (a + 256 * b) <<< 8 := by
    rw [Nat.or_comm]
    exact Nat.shiftLeft_add_eq_or_of_lt (by omega) _
  rw [swap16, hhigh, ← hlow, Nat.shiftLeft_eq]
  omega

/-- The code reads the last two bytes of the output as a number, the high byte first. -/
theorem rightmostOutBits_eq {stc : HashTc} (hmin : 2 ≤ stc.mdLen)
    (hmax : stc.mdLen ≤ hashXofMdByteMax) :
    rightmostOutBits stc = .ok (rightmost16 (stc.md.read stc.mdLen)) := by
  have hnext : stc.mdLen - 2 + 1 = stc.mdLen - 1 := by omega
  rw [rightmostOutBits, if_neg (by omega), load16, swap16_bytes (UInt8.toNat_lt _)
    (UInt8.toNat_lt _), rightmost16, Memory.read_length, Memory.read_getD _ (by omega),
    Memory.read_getD _ (by omega), hnext]

/-- The front of the last digest, with zeros behind it. -/
theorem hashShakeFeed_msg (stc : HashTc) :
    (hashShakeFeed stc).msg.read leftmostBytes = leftmost128 (stc.md.read stc.mdLen) := by
  unfold leftmostBytes leftmost128 hashShakeFeed
  rw [Memory.read_length]
  by_cases hshort : stc.mdLen ≤ leftmostBytes
  · rw [if_pos hshort]
    unfold leftmostBytes at hshort
    have hsum : 16 = stc.mdLen + (16 - stc.mdLen) := by omega
    have htake : (stc.md.read stc.mdLen).take 16 = stc.md.read stc.mdLen :=
      List.take_of_length_le (by simpa using hshort)
    rw [htake]
    conv_lhs => rw [hsum]
    exact Memory.read_copy_clear _ _ (by unfold shakeMsgByteMax; omega)
  · rw [if_neg hshort]
    unfold leftmostBytes at hshort
    rw [Memory.take_read _ (by omega), show 16 - stc.mdLen = 0 by omega]
    exact Memory.read_copy_clear stc.msg stc.md (show 16 + 0 ≤ shakeMsgByteMax by decide)

namespace HashFunction

variable {H : HashFunction} {p : Partner HashTc} {seed : List UInt8} {minBytes maxBytes : Nat}

/-- The steps of the SHAKE procedure, one more at the end. -/
theorem shakeStep_succ (k : Nat) : H.shakeStep minBytes maxBytes seed (k + 1) =
    H.shakeNext minBytes maxBytes (H.shakeStep minBytes maxBytes seed k) :=
  Function.iterate_succ_apply' _ _ _

/-- The lengths of the digests stay between the bounds. -/
theorem shakeStep_outLen (seed : List UInt8) (hle : minBytes ≤ maxBytes) (k : Nat) :
    minBytes ≤ (H.shakeStep minBytes maxBytes seed k).outLen ∧
      (H.shakeStep minBytes maxBytes seed k).outLen ≤ maxBytes := by
  cases k with
  | zero => exact ⟨hle, Nat.le_refl _⟩
  | succ k =>
    rw [shakeStep_succ]
    have hrem := Nat.mod_lt
      (rightmost16 (H.shakeDigest (H.shakeStep minBytes maxBytes seed k)))
      (show 0 < maxBytes - minBytes + 1 by omega)
    exact ⟨Nat.le_add_right _ _, by unfold shakeNext; dsimp only; omega⟩

/-- A test case that is ready for a step. -/
structure ShakeAt (H : HashFunction) (minBytes maxBytes : Nat) (seed : List UInt8) (k : Nat)
    (stc : HashTc) : Prop where
  shake : stc.cipher.isShake
  msg : stc.msg.read leftmostBytes = (H.shakeStep minBytes maxBytes seed k).msg
  xofLen : stc.xofLen = (H.shakeStep minBytes maxBytes seed k).outLen
  md : ∀ i, k = i + 1 →
    stc.md.read stc.mdLen = H.shakeDigest (H.shakeStep minBytes maxBytes seed i)

/-- The digest of the next call is the next one of the procedure. -/
theorem ShakeAt.digestOf {k : Nat} {stc : HashTc} (h : ShakeAt H minBytes maxBytes seed k stc)
    (md : Memory) : H.digestOf { stc with msgLen := leftmostBytes, md := md } =
      H.shakeDigest (H.shakeStep minBytes maxBytes seed k) := by
  have hsha : isShaMct stc.cipher = false := by simp [isShaMct, h.shake]
  have hmessage : ({ stc with msgLen := leftmostBytes, md := md } : HashTc).message =
      stc.msg.read leftmostBytes :=
    message_of_not_sha hsha
  rw [HashFunction.digestOf, hmessage, if_pos h.shake, h.msg, h.xofLen]
  rfl

/-- What an iteration starts from, the front of the last digest of which is still to become the
message. -/
def ShakeBefore (H : HashFunction) (minBytes maxBytes : Nat) (seed : List UInt8) (k i : Nat)
    (stc : HashTc) : Prop :=
  ShakeAt H minBytes maxBytes seed (k + i) (if i ≠ 0 then hashShakeFeed stc else stc)

/-- The front of a digest becomes the message, and its end gives the length of the next one. -/
theorem ShakeAt.next {k : Nat} {stc : HashTc} (h : ShakeAt H minBytes maxBytes seed k stc)
    (hle : minBytes ≤ maxBytes) (hmax : maxBytes ≤ hashXofMdByteMax) {md : Memory} {mdLen : Nat}
    (hmd : md.read mdLen = H.shakeDigest (H.shakeStep minBytes maxBytes seed k)) :
    ShakeAt H minBytes maxBytes seed (k + 1) (hashShakeFeed { stc with
      msgLen := leftmostBytes
      md := md
      mdLen := mdLen
      xofLen := (minBytes + rightmost16 (md.read mdLen) % (maxBytes - minBytes + 1)) %
        2 ^ 32 }) := by
  refine ⟨h.shake, ?_, ?_, ?_⟩
  · rw [hashShakeFeed_msg, shakeStep_succ]
    exact congrArg leftmost128 hmd
  · obtain ⟨-, hnext⟩ := H.shakeStep_outLen seed hle (k + 1)
    rw [shakeStep_succ, shakeNext] at hnext ⊢
    rw [hmd]
    exact Nat.mod_eq_of_lt (hnext.trans_lt (hmax.trans_lt (by decide)))
  · rintro i hi
    obtain rfl := Nat.succ.inj hi
    exact hmd

/-- The inner loop computes the steps, by induction on the calls left. -/
theorem runs_hashShakeCalls_standard (hp : H.Implements p) (hmin : 2 ≤ minBytes)
    (hle : minBytes ≤ maxBytes) (hmax : maxBytes ≤ hashXofMdByteMax) (k : Nat) :
    ∀ (n i : Nat) (stc : HashTc), i + n = hashMctInner + 1 → i ≤ hashMctInner →
      ShakeBefore H minBytes maxBytes seed k i stc →
      (hashSetting p).Runs () (hashShakeCalls minBytes (maxBytes - minBytes + 1) n i stc)
        fun stc' _ => ShakeAt H minBytes maxBytes seed (k + hashMctInner) stc' := by
  intro n
  induction n with
  | zero => exact fun i stc hn hi => by omega
  | succ n ih =>
    intro i stc hn hi h
    rw [hashShakeCalls]
    unfold ShakeBefore at h
    generalize (if i ≠ 0 then hashShakeFeed stc else stc) = fed at h
    refine Setting.runs_ite (fun hi => Setting.runs_pure (hi ▸ h)) fun hne => ?_
    refine Setting.runs_ask_bind trivial fun before _ => ?_
    obtain ⟨md, mdLen, hreply, hmd⟩ := hp before { fed with
      msgLen := leftmostBytes
      md := fed.md.clear hashXofMdByteMax }
    rw [show (hashSetting p).partner before _ = _ from hreply]
    refine Setting.runs_ite (fun hcode => absurd rfl hcode) fun _ => ?_
    rw [h.digestOf] at hmd
    obtain ⟨hlow, hhigh⟩ := H.shakeStep_outLen seed hle (k + i)
    have hlen : mdLen = (H.shakeStep minBytes maxBytes seed (k + i)).outLen := by
      rw [← Memory.read_length md mdLen, hmd]
      exact H.length_digest _ _
    rw [rightmostOutBits_eq (hlen ▸ hmin.trans hlow) (hlen ▸ hhigh.trans hmax)]
    refine Setting.runs_ofExcept_bind (fun rightmost hrightmost => ?_) fun _ he => by cases he
    obtain rfl := Except.ok.inj hrightmost
    rw [if_neg (Nat.succ_ne_zero _)]
    refine ih (i + 1) _ (by omega) (by omega) ?_
    rw [ShakeBefore, if_pos (Nat.succ_ne_zero i), ← Nat.add_assoc]
    exact h.next hle hmax hmd

/-- The outer loop answers every thousandth step, by induction on the rounds left. -/
theorem runs_hashShakeRounds_standard (hp : H.Implements p) (hmin : 2 ≤ minBytes)
    (hle : minBytes ≤ maxBytes) (hmax : maxBytes ≤ hashXofMdByteMax) :
    ∀ (n j : Nat) (stc : HashTc),
      ShakeAt H minBytes maxBytes seed (hashMctInner * j) stc →
      (hashSetting p).Runs () (hashShakeRounds minBytes (maxBytes - minBytes + 1) n stc)
        fun results _ => results = (List.range' j n).map fun j =>
          digestEntry (H.shakeDigest (H.shakeStep minBytes maxBytes seed (1000 * j + 999))) := by
  intro n
  induction n with
  | zero => exact fun j stc _ => Setting.runs_pure rfl
  | succ n ih =>
    intro j stc h
    rw [hashShakeRounds]
    refine (runs_hashShakeCalls_standard hp hmin hle hmax (hashMctInner * j) _ 0 stc
      (Nat.zero_add _) (Nat.zero_le _) h).bind fun stc' _ h' => ?_
    have hmd := h'.md (1000 * j + 999) rfl
    obtain ⟨-, hhigh⟩ := H.shakeStep_outLen seed hle (1000 * j + 999)
    have hout : hashOutputMctTc stc' = .ok (digestEntry
        (H.shakeDigest (H.shakeStep minBytes maxBytes seed (1000 * j + 999)))) := by
      refine hashOutputMctTc_ok hmd ?_
      rw [← Memory.read_length stc'.md stc'.mdLen, hmd, if_pos h'.shake, shakeDigest,
        H.length_digest]
      exact Nat.mul_le_mul_left 2 (hhigh.trans hmax)
    rw [hout]
    refine Setting.runs_ofExcept_bind (fun obj hobj => ?_) fun _ he => by cases he
    obtain rfl := Except.ok.inj hobj
    refine (ih (j + 1) _ (by rwa [Nat.mul_succ])).bind fun results _ hresults =>
      Setting.runs_pure ?_
    rw [hresults, List.range'_succ, List.map_cons]

/-- The procedure of SHAKE answers the hundred outputs of the standard. -/
theorem hashShakeMct_standard (hp : H.Implements p) {stc : HashTc} (hshake : stc.cipher.isShake)
    {minOutLen maxOutLen : Nat} (hmin : 16 ≤ minOutLen) (hle : minOutLen ≤ maxOutLen)
    (hmax : maxOutLen ≤ 65536) :
    (hashSetting p).Runs () (hashShakeMct stc minOutLen maxOutLen) fun results _ =>
      results = (List.range 100).map fun j => digestEntry (H.shakeDigest
        (H.shakeStep (minOutLen / 8) (maxOutLen / 8) (stc.msg.read 16) (1000 * j + 999))) := by
  have hrange : (maxOutLen / 8 + (2 ^ 32 - minOutLen / 8) + 1) % 2 ^ 32 =
      maxOutLen / 8 - minOutLen / 8 + 1 := by
    omega
  have hfirst : (maxOutLen / 8 * 8 + 7) / 8 = maxOutLen / 8 := by omega
  rw [List.range_eq_range', hashShakeMct, hrange, hfirst]
  refine runs_hashShakeRounds_standard hp (by omega) (by omega)
    (by unfold hashXofMdByteMax; omega) 100 0 _ ⟨hshake, rfl, rfl, fun i hi => absurd hi (Nat.succ_ne_zero i).symm⟩

/-- The results of the loop for SHA-1 and SHA-2. -/
def shaResults (H : HashFunction) (seed : List UInt8) : List JsonObject :=
  (List.range 100).map fun j => digestEntry (H.shaSeed seed (j + 1))

/-- The results of the loop for SHA-3. -/
def sha3Results (H : HashFunction) (seed : List UInt8) : List JsonObject :=
  (List.range 100).map fun j => digestEntry (H.sha3Seed seed (j + 1))

/-- The results of the loop for the extendable-output functions. -/
def shakeResults (H : HashFunction) (minOutLen maxOutLen : Nat) (seed : List UInt8) :
    List JsonObject :=
  (List.range 100).map fun j => digestEntry (H.shakeDigest
    (H.shakeStep (minOutLen / 8) (maxOutLen / 8) seed (1000 * j + 999)))

/-- The results of the loops are the digests of the recurrences: the last one of every round,
which SHA-1, SHA-2 and SHA-3 take as the seed of the next round. -/
theorem hashMct_standard (H : HashFunction) {p : Partner HashTc} (hp : H.Implements p)
    (before : List HashTc) (stc : HashTc) (hmct : stc.testType = .mct) :
    (isShaMct stc.cipher → stc.msgLen = H.size →
      (hashMctTc stc p before).1 = .ok (H.shaResults (stc.msg.read stc.msgLen))) ∧
    (isSha3Mct stc.cipher →
      (hashSha3Mct stc p before).1 = .ok (H.sha3Results (stc.msg.read stc.msgLen))) ∧
    (stc.cipher.isShake → stc.msgLen = 16 → ∀ minOutLen maxOutLen, 16 ≤ minOutLen →
      minOutLen ≤ maxOutLen → maxOutLen ≤ 65536 →
      (hashShakeMct stc minOutLen maxOutLen p before).1 =
        .ok (H.shakeResults minOutLen maxOutLen (stc.msg.read stc.msgLen))) := by
  refine ⟨fun hsha hseed => ?_, fun hsha3 => ?_, fun hshake hseed minOutLen maxOutLen hmin hle
    hmax => ?_⟩
  · obtain ⟨_, _, hrun, rfl⟩ := (hashMctTc_standard hp hmct hsha hseed).ok (fun _ => id) rfl
    exact congrArg Prod.fst hrun
  · obtain ⟨_, _, hrun, rfl⟩ := (hashSha3Mct_standard hp hsha3).ok (fun _ => id) rfl
    exact congrArg Prod.fst hrun
  · obtain ⟨_, _, hrun, rfl⟩ := (hashShakeMct_standard hp hshake hmin hle hmax).ok (fun _ => id) rfl
    rw [hseed]
    exact congrArg Prod.fst hrun

/-- Digests of zeros. -/
def zeros : HashFunction where
  digest _ n := List.replicate n 0
  length_digest _ _ := List.length_replicate
  size := 20
  size_le := by decide

/-- A module that computes them. -/
def zerosModule : Partner HashTc := fun _ tc =>
  (0, { tc with md := .zero, mdLen := if tc.cipher.isShake then tc.xofLen else 20 })

/-- The module of the example computes the function that answers zeros. -/
theorem zerosModule_implements : zeros.Implements zerosModule := fun _ tc =>
  ⟨.zero, _, rfl, List.eq_replicate_iff.mpr ⟨Memory.read_length _ _, fun byte hbyte => by
    obtain ⟨_, _, rfl⟩ := List.mem_map.mp hbyte
    rfl⟩⟩

/-- The statement at SHAKE-128 with outputs from 16 to 65536 bits. -/
theorem hashMct_standard_shake128 :
    (hashShakeMct shakeTc 16 65536 zerosModule []).1 =
      .ok (zeros.shakeResults 16 65536 (Memory.zero.read 16)) :=
  (hashMct_standard zeros zerosModule_implements [] shakeTc rfl).2.2 rfl rfl 16 65536
    (by decide) (by decide) (by decide)

/-! ## Monte Carlo tests of the handler -/

/-- The message of a Monte Carlo test is a seed that the loop of its algorithm takes, and the
bounds of a group for an extendable-output function are in order. -/
def SeedFits (H : HashFunction) (group : HashGroup) (stc : HashTc) : Prop :=
  (isShaMct stc.cipher → stc.msgLen = H.size) ∧
    (stc.cipher.isShake → stc.msgLen = 16 ∧ group.minXofLen ≤ group.maxXofLen)

/-- The results of a Monte Carlo test of an algorithm. -/
def mctResults (H : HashFunction) (group : HashGroup) (stc : HashTc) : List JsonObject :=
  if isSha3Mct stc.cipher then H.sha3Results (stc.msg.read stc.msgLen)
  else if stc.cipher.isShake then
    H.shakeResults group.minXofLen group.maxXofLen (stc.msg.read stc.msgLen)
  else H.shaResults (stc.msg.read stc.msgLen)

/-- The answer to a Monte Carlo test holds the digests of the recurrence of its algorithm. -/
def MctAnswered (H : HashFunction) (algId : Cipher) (group : HashGroup)
    (testobj : Option JsonObject) (answer : JsonObject) : Prop :=
  ∃ stc, readHashTest algId group.testType testobj = .ok stc ∧
    (group.testType = .mct → H.SeedFits group stc →
      answer = jsonObjectSetValue (responseTest testobj) "resultsArray"
        (.arr ((H.mctResults group stc).map .obj)))

/-- A test that was read has the cipher of the handler and the type of its group. -/
theorem readHashTest_ok {algId : Cipher} {testType : HashTestType} {testobj : Option JsonObject}
    {stc : HashTc} (h : readHashTest algId testType testobj = .ok stc) :
    stc.cipher = algId ∧ stc.testType = testType := by
  simp only [readHashTest, hashInitTc, bind_eq_ok, pure_eq_ok] at h
  obtain ⟨_, -, _, -, _, -, _, -, rfl⟩ := h
  exact ⟨rfl, rfl⟩

/-- The loop of an algorithm yields the results that are meant. -/
theorem hashMct_results (hp : H.Implements p) {algId : Cipher} {groupobj : Option JsonObject}
    {group : HashGroup} {stc : HashTc} (hgroup : readHashGroup algId groupobj = .ok group)
    (hmct : group.testType = .mct) (hcipher : stc.cipher = algId) (htype : stc.testType = .mct)
    (hseed : H.SeedFits group stc) (before : List HashTc) :
    (hashMct algId group stc p before).1 = .ok (H.mctResults group stc) := by
  subst hcipher
  rw [hashMct, mctResults]
  by_cases hsha3 : isSha3Mct stc.cipher
  · rw [if_pos hsha3, if_pos hsha3]
    obtain ⟨_, _, hrun, rfl⟩ := (hashSha3Mct_standard hp hsha3).ok (fun _ => id) rfl
    exact congrArg Prod.fst hrun
  · rw [if_neg hsha3, if_neg hsha3]
    by_cases hshake : stc.cipher.isShake
    · rw [if_pos hshake, if_pos hshake]
      obtain ⟨hmin, hmax⟩ := readHashGroup_xofLens hgroup hmct hshake
      obtain ⟨hlength, hle⟩ := hseed.2 hshake
      obtain ⟨_, _, hrun, rfl⟩ :=
        (hashShakeMct_standard hp hshake hmin hle hmax).ok (fun _ => id) rfl
      rw [hlength]
      exact congrArg Prod.fst hrun
    · rw [if_neg hshake, if_neg hshake]
      have hsha : isShaMct stc.cipher := by
        simp [isShaMct, hsha3, hshake]
      obtain ⟨_, _, hrun, rfl⟩ :=
        (hashMctTc_standard hp htype hsha (hseed.1 hsha)).ok (fun _ => id) rfl
      exact congrArg Prod.fst hrun

/-- What the handler answers to a Monte Carlo test are the results of the standard. -/
theorem mctAnswered_of_answers (hp : H.Implements p) {algId : Cipher}
    {groupobj : Option JsonObject} {group : HashGroup} {testobj : Option JsonObject}
    {answer : JsonObject} (hgroup : readHashGroup algId groupobj = .ok group)
    (h : (hashWorker algId).Answers p group testobj answer) :
    H.MctAnswered algId group testobj answer := by
  obtain ⟨s, before, s', asked, hwork⟩ := h
  obtain ⟨stc, asked₁, asked₂, hread, hrest, -⟩ := Dialog.bind_ok hwork
  have htest : readHashTest algId group.testType testobj = .ok stc :=
    mapError_eq_ok.mp (congrArg Prod.fst hread)
  refine ⟨stc, htest, fun hmct hseed => ?_⟩
  obtain ⟨hcipher, htype⟩ := readHashTest_ok htest
  obtain ⟨rTobj, asked₃, asked₄, hplay, hpure, -⟩ := Dialog.bind_ok hrest
  cases hpure
  rw [hashPlay, if_pos (htype.trans hmct)] at hplay
  obtain ⟨results, asked₅, asked₆, hloop, hset, -⟩ := Dialog.bind_ok hplay
  cases hset
  have hresults := hashMct_results hp hgroup hmct hcipher (htype.trans hmct) hseed
    (before ++ asked₁)
  rw [hloop] at hresults
  rw [Except.ok.inj hresults]

/-- In every response of the handler the answers to the Monte Carlo tests hold the digests of the
recurrences, group by group and test by test. -/
theorem hashKatHandler_mct (hp : H.Implements p) {ctx : KatCtx} {obj rsp : JsonObject}
    (h : (hashKatHandler ctx obj p).1 = .ok rsp) :
    ∃ algStr algId groups, rsp = responseObject ctx.vsId algStr groups ∧
      List.Forall₂ (fun b group' => ∃ group answers, readHashGroup algId b.head = .ok group ∧
        List.Forall₂ (H.MctAnswered algId group) b.items answers ∧
        group' = responseGroup "tgId" group.tgId answers) (testGroups obj) groups := by
  rw [hashKatHandler] at h
  cases hsetup : setupByAlgorithm ctx (withoutMember obj "testGroups") with
  | error rv =>
      rw [hsetup] at h
      cases h
  | ok head =>
      obtain ⟨algStr, algId⟩ := head
      rw [hsetup] at h
      obtain ⟨groups, hgroups, rfl⟩ := map_eq_ok.mp h
      refine ⟨algStr, algId, groups, rfl, (Worker.result_ok hgroups).imp ?_⟩
      rintro b group' ⟨s, group, s', answers, henter, hanswers, rfl⟩
      obtain ⟨group', hread, hsame⟩ := map_eq_ok.mp henter
      obtain ⟨rfl, -⟩ := Prod.mk.inj hsame
      have hgroup : readHashGroup algId b.head = .ok group' := mapError_eq_ok.mp hread
      exact ⟨group', answers, hgroup,
        hanswers.imp fun _ _ => mctAnswered_of_answers hp hgroup, rfl⟩

end HashFunction

end LibAmvp
