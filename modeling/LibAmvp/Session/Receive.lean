import LibAmvp.Lib.Cells
import LibAmvp.Lib.Steps

/-!
# The receive buffer

The body of a reply arrives in chunks.  A callback appends each chunk to the receive
buffer of the context and terminates the text, or refuses it.  The buffer is allocated
by the first callback that needs it, and cleared before every later request.

Main results:

- Theorem {lit}`writeCallback_cases`: a chunk is refused, stored, or fills the buffer to the
  last byte, in which case the terminator falls outside.
- Theorem {lit}`receive_iff`: over any sequence of chunks the buffer holds what was accepted,
  with its terminator inside, exactly when no chunk fills it to the last byte.
-/

namespace LibAmvp

open Cells Steps

/-- {lit}`AMVP_CURL_BUF_MAX`. -/
def amvpCurlBufMax : Nat := 1024 * 1024 * 64

/-- The range of {lit}`size_t`. -/
def sizeRange : Nat := 2 ^ 64

/-- The receive buffer and the number of bytes in it. -/
structure Recv where
  curlBuf : Option (List UInt8)
  curlReadCtr : Nat

/-- One call of the callback: {lit}`nmemb` elements of {lit}`size` bytes each, which lie in
memory, and what the allocator answers should it be asked. -/
structure Delivery where
  size : Nat
  nmemb : Nat
  data : List UInt8
  granted : Bool
  length_data : data.length = size * nmemb
  addressable : data.length < 2 ^ 63

/-- {lit}`memcpy_s` into an allocation from this index on. -/
def memcpyS (cells : List UInt8) (at' dmax : Nat) (src : List UInt8) : Checked (List UInt8) :=
  if dmax < src.length then .ok cells else writeAll cells at' src

/-- {lit}`amvp_curl_write_callback`: the number of bytes it reports as taken, and the buffer
after it. -/
def writeCallback (d : Delivery) (r : Recv) : Checked (Nat × Recv) :=
  if d.size ≠ 1 then .ok (0, r)
  else
    let buf := r.curlBuf.orElse fun _ =>
      if d.granted then some (List.replicate amvpCurlBufMax 0) else none
    match buf with
    | none => .ok (0, r)
    | some cells =>
      if amvpCurlBufMax < (r.curlReadCtr + d.nmemb) % sizeRange then
        .ok (0, { r with curlBuf := some cells })
      else do
        let cells ← memcpyS cells r.curlReadCtr (amvpCurlBufMax - r.curlReadCtr) d.data
        let cells ← write cells (r.curlReadCtr + d.nmemb : Nat) 0
        return (d.nmemb, ⟨some cells, r.curlReadCtr + d.nmemb⟩)

/-- A transfer: the buffer, and the bytes taken so far. -/
structure Transfer where
  recv : Recv
  accepted : List UInt8

/-- A transfer before its first chunk: the counter is reset, and the buffer is either not
yet allocated or cleared. -/
def Transfer.start (allocated : Bool) : Transfer where
  recv := ⟨if allocated then some (List.replicate amvpCurlBufMax 0) else none, 0⟩
  accepted := []

/-- The next chunk. -/
def Transfer.step (d : Delivery) (t : Transfer) : Option Transfer :=
  match writeCallback d t.recv with
  | .ok (taken, recv) => some ⟨recv, t.accepted ++ d.data.take taken⟩
  | .error _ => none

/-- The buffer holds these bytes, followed by a terminator at the counter. -/
def Recv.Holds (accepted : List UInt8) (r : Recv) : Prop :=
  r.curlReadCtr = accepted.length ∧
    ((r.curlBuf = none ∧ accepted = []) ∨ ∃ back, r.curlBuf = some (accepted ++ 0 :: back))

/-- The callback writes inside the buffer only, and the buffer then holds what was
accepted so far. -/
def Stores (d : Delivery) (t : Transfer) : Prop :=
  ∃ taken recv, writeCallback d t.recv = .ok (taken, recv) ∧
    recv.Holds (t.accepted ++ d.data.take taken)

/-- The chunk is one the callback takes. -/
def Accepts (d : Delivery) (t : Transfer) : Prop :=
  d.size = 1 ∧ (t.recv.curlBuf.isSome ∨ d.granted) ∧
    t.recv.curlReadCtr + d.nmemb ≤ amvpCurlBufMax

/-- The chunk fills the buffer to the last byte. -/
def FillsBuffer (d : Delivery) (t : Transfer) : Prop :=
  d.size = 1 ∧ (t.recv.curlBuf.isSome ∨ d.granted) ∧
    t.recv.curlReadCtr + d.nmemb = amvpCurlBufMax

/-- The transfer between chunks: the buffer holds what was accepted, and has room for the
terminator. -/
structure Transfer.Inv (t : Transfer) : Prop where
  holds : t.recv.Holds t.accepted
  size : ∀ cells, t.recv.curlBuf = some cells → cells.length = amvpCurlBufMax

section Callback

variable {d : Delivery} {t : Transfer}

theorem Transfer.Inv.start (allocated : Bool) : (Transfer.start allocated).Inv := by
  have hpos : amvpCurlBufMax = (1024 * 1024 * 64 - 1) + 1 := rfl
  cases allocated with
  | false => exact ⟨⟨rfl, .inl ⟨rfl, rfl⟩⟩, by rintro cells ⟨⟩⟩
  | true =>
      refine ⟨⟨rfl, .inr ⟨List.replicate (1024 * 1024 * 64 - 1) 0, ?_⟩⟩, ?_⟩
      · rw [Transfer.start, if_pos rfl, hpos, List.replicate_succ]
        rfl
      · rintro cells ⟨⟩
        exact List.length_replicate

/-- The buffer the callback works on. -/
def Delivery.buffer (d : Delivery) (r : Recv) : Option (List UInt8) :=
  r.curlBuf.orElse fun _ => if d.granted then some (List.replicate amvpCurlBufMax 0) else none

/-- The buffer the callback works on holds what was accepted before. -/
theorem Transfer.Inv.buffer (h : t.Inv) {cells : List UInt8}
    (hbuf : d.buffer t.recv = some cells) :
    cells.length = amvpCurlBufMax ∧ ∃ back, cells = t.accepted ++ 0 :: back := by
  obtain ⟨-, ⟨hnone, hnil⟩ | ⟨back, hsome⟩⟩ := h.holds
  · have hpos : amvpCurlBufMax = (1024 * 1024 * 64 - 1) + 1 := rfl
    rw [Delivery.buffer, hnone] at hbuf
    cases hgrant : d.granted with
    | false => simp [hgrant] at hbuf
    | true =>
        rw [hgrant, if_pos rfl] at hbuf
        injection hbuf with hbuf
        subst hbuf
        refine ⟨List.length_replicate, List.replicate (1024 * 1024 * 64 - 1) 0, ?_⟩
        rw [hnil, hpos, List.replicate_succ]
        rfl
  · rw [Delivery.buffer, hsome] at hbuf
    injection hbuf with hbuf
    subst hbuf
    exact ⟨h.size _ hsome, back, rfl⟩

theorem Transfer.Inv.length_lt (h : t.Inv) : t.accepted.length < amvpCurlBufMax := by
  obtain ⟨-, ⟨-, hnil⟩ | ⟨back, hsome⟩⟩ := h.holds
  · rw [hnil, List.length_nil, amvpCurlBufMax]
    omega
  · have hsize := h.size _ hsome
    rw [List.length_append, List.length_cons] at hsize
    omega

theorem FillsBuffer.accepts (h : FillsBuffer d t) : Accepts d t :=
  ⟨h.1, h.2.1, Nat.le_of_eq h.2.2⟩

/-- What a chunk can do: it is refused, it is stored, or it fills the buffer and the
terminator falls outside. -/
inductive CallbackCase (d : Delivery) (t : Transfer) : Checked (Nat × Recv) → Prop where
  | refused (recv : Recv) : ¬ Accepts d t →
      Transfer.Inv ⟨recv, t.accepted⟩ → CallbackCase d t (.ok (0, recv))
  | stored (recv : Recv) : ¬ FillsBuffer d t → d.size = 1 →
      Transfer.Inv ⟨recv, t.accepted ++ d.data⟩ → CallbackCase d t (.ok (d.nmemb, recv))
  | overrun : FillsBuffer d t → CallbackCase d t (.error amvpCurlBufMax)

theorem writeCallback_cases (h : t.Inv) (d : Delivery) :
    CallbackCase d t (writeCallback d t.recv) := by
  have hctr := h.holds.1
  have hlt := h.length_lt
  have haddr := d.addressable
  by_cases hsize : d.size = 1
  swap
  · rw [writeCallback, if_pos hsize]
    exact .refused _ (fun haccept => hsize haccept.1) h
  have hdata : d.data.length = d.nmemb := by
    rw [d.length_data, hsize, Nat.one_mul]
  rw [writeCallback, if_neg (fun hne => hne hsize)]
  cases hbuf : d.buffer t.recv with
  | none =>
      have hno : ¬ Accepts d t := by
        rintro ⟨-, hsome, -⟩
        rw [Delivery.buffer] at hbuf
        cases hcurl : t.recv.curlBuf with
        | none =>
            rw [hcurl] at hbuf hsome
            rcases hsome with hsome | hgrant
            · cases hsome
            · rw [hgrant] at hbuf
              simp at hbuf
        | some cells =>
            rw [hcurl] at hbuf
            cases hbuf
      rw [Delivery.buffer] at hbuf
      simp only [hbuf]
      exact .refused _ hno h
  | some cells =>
      obtain ⟨hlen, back, hcells⟩ := h.buffer hbuf
      have hsome : t.recv.curlBuf.isSome ∨ d.granted := by
        rw [Delivery.buffer] at hbuf
        cases hcurl : t.recv.curlBuf with
        | some cells => exact .inl rfl
        | none =>
            rw [hcurl] at hbuf
            cases hgrant : d.granted with
            | true => exact .inr rfl
            | false => simp [hgrant] at hbuf
      have hmod : (t.recv.curlReadCtr + d.nmemb) % sizeRange = t.recv.curlReadCtr + d.nmemb := by
        apply Nat.mod_eq_of_lt
        rw [amvpCurlBufMax] at hlt
        rw [hctr, sizeRange]
        omega
      rw [Delivery.buffer] at hbuf
      simp only [hbuf, hmod]
      split
      · next hover =>
        -- the text stays as it was, in a buffer that may be new
        refine .refused _ (fun haccept => absurd haccept.2.2 (by omega)) ⟨⟨hctr, ?_⟩, ?_⟩
        · exact .inr ⟨back, by rw [hcells]⟩
        · rintro _ ⟨⟩
          exact hlen
      · next hroom =>
        have hcopy : memcpyS cells t.recv.curlReadCtr (amvpCurlBufMax - t.recv.curlReadCtr)
            d.data = .ok (t.accepted ++ (d.data ++ cells.drop (t.accepted.length + d.nmemb))) := by
          rw [memcpyS, if_neg (by omega), hctr, writeAll_of_le d.data (by omega), hdata, hcells,
            List.take_left]
        rw [hcopy, Guard.ok_bind]
        have hplace : (t.accepted ++ d.data).length = t.recv.curlReadCtr + d.nmemb := by
          rw [List.length_append, hctr, hdata]
        by_cases hfull : t.recv.curlReadCtr + d.nmemb = amvpCurlBufMax
        · have hdrop : cells.drop (t.accepted.length + d.nmemb) = [] := by
            rw [← hctr, hfull, ← hlen, List.drop_length]
          have hend : (t.accepted ++ (d.data ++ [])).length ≤ t.recv.curlReadCtr + d.nmemb := by
            rw [List.append_nil, hplace]
          rw [hdrop, write_of_length_le hend, Checked.error_bind, hfull]
          exact .overrun ⟨hsize, hsome, hfull⟩
        · have hmore : cells.drop (t.accepted.length + d.nmemb) ≠ [] := by
            rw [ne_eq, List.drop_eq_nil_iff]
            omega
          obtain ⟨old, rest, hrest⟩ := List.exists_cons_of_ne_nil hmore
          have hwrite := write_at 0 (t.accepted ++ (d.data ++ old :: rest))
            (t.accepted ++ d.data) old rest (by simp) hplace
          have hlength : (t.accepted ++ d.data ++ 0 :: rest).length = amvpCurlBufMax := by
            have hcount := congrArg List.length hrest
            simp only [List.length_drop, List.length_cons] at hcount
            simp only [List.length_append, List.length_cons]
            omega
          rw [hrest, hwrite, Guard.ok_bind]
          refine .stored _ (fun hfill => hfull hfill.2.2) hsize
            ⟨⟨hplace.symm, .inr ⟨rest, rfl⟩⟩, ?_⟩
          rintro _ ⟨⟩
          exact hlength

/-- All the bytes of a stored chunk are taken. -/
theorem Delivery.take_nmemb (hsize : d.size = 1) : d.data.take d.nmemb = d.data := by
  apply List.take_of_length_le
  rw [d.length_data, hsize, Nat.one_mul]

theorem Transfer.Inv.step {t' : Transfer} (h : t.Inv) (hstep : t.step d = some t') : t'.Inv := by
  have hcase := writeCallback_cases h d
  rw [Transfer.step] at hstep
  generalize writeCallback d t.recv = x at hcase hstep
  cases hcase with
  | refused recv _ hinv =>
      injection hstep with hstep
      rwa [← hstep, List.take_zero, List.append_nil]
  | stored recv _ hsize hinv =>
      injection hstep with hstep
      rwa [← hstep, Delivery.take_nmemb hsize]
  | overrun => cases hstep

theorem stores_iff (h : t.Inv) : Stores d t ↔ ¬ FillsBuffer d t := by
  have hcase := writeCallback_cases h d
  constructor
  · rintro ⟨taken, recv, hok, -⟩
    rw [hok] at hcase
    generalize hx : Except.ok (taken, recv) = x at hcase
    cases hcase with
    | refused _ hno => exact fun hfill => hno hfill.accepts
    | stored _ hfill => exact hfill
    | overrun => cases hx
  · intro hfill
    generalize hx : writeCallback d t.recv = x at hcase
    cases hcase with
    | refused recv _ hinv =>
        refine ⟨0, recv, hx, ?_⟩
        rw [List.take_zero, List.append_nil]
        exact hinv.holds
    | stored recv _ hsize hinv =>
        refine ⟨d.nmemb, recv, hx, ?_⟩
        rw [Delivery.take_nmemb hsize]
        exact hinv.holds
    | overrun hfull => exact absurd hfull hfill

/-- Over any sequence of chunks the buffer holds what was accepted, with its terminator
inside, exactly when no chunk fills it to the last byte. -/
theorem receive_iff (allocated : Bool) (ds : List Delivery) :
    EveryStep Transfer.step Stores (.start allocated) ds ↔
      EveryStep Transfer.step (fun d t => ¬ FillsBuffer d t) (.start allocated) ds :=
  everyStep_iff Transfer.Inv (fun _ _ h => stores_iff h) (fun _ _ _ h _ hstep => h.step hstep)
    (Transfer.Inv.start allocated) ds

end Callback

/-! ## A body of exactly the capacity -/

/-- A chunk of 16 KiB, the largest curl delivers. -/
def block : Delivery where
  size := 1
  nmemb := 16384
  data := List.replicate 16384 0
  granted := true
  length_data := List.length_replicate
  addressable := by rw [List.length_replicate]; omega

theorem block_length : block.data.length = 16384 :=
  List.length_replicate

/-- Blocks that add up to the capacity do not all find their place. -/
theorem not_stores_blocks {t : Transfer} (h : t.Inv) {n : Nat}
    (hn : t.accepted.length + (n + 1) * 16384 = amvpCurlBufMax) :
    ¬ EveryStep Transfer.step Stores t (List.replicate (n + 1) block) := by
  have hctr := h.holds.1
  have hnmemb : block.nmemb = 16384 := rfl
  induction n generalizing t with
  | zero =>
      rintro ⟨hstores, -⟩
      exact (stores_iff h).mp hstores ⟨rfl, .inr rfl, by omega⟩
  | succ n ih =>
      rintro ⟨hstores, hrest⟩
      have haccept : Accepts block t := ⟨rfl, .inr rfl, by omega⟩
      have hcase := writeCallback_cases h block
      generalize hx : writeCallback block t.recv = x at hcase
      cases hcase with
      | refused _ hno => exact hno haccept
      | stored recv _ hsize hinv =>
          refine ih hinv ?_ hinv.holds.1 (hrest _ ?_)
          · rw [List.length_append, block_length]
            omega
          · rw [Transfer.step, hx]
            dsimp only
            rw [Delivery.take_nmemb hsize]
      | overrun hfill => exact (stores_iff h).mp hstores hfill

/-- A body of 4096 blocks. -/
theorem receive_not_stores :
    ¬ EveryStep Transfer.step Stores (.start false) (List.replicate 4096 block) :=
  not_stores_blocks (n := 4095) (Transfer.Inv.start false) rfl

end LibAmvp
