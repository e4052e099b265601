import NanoDrone.Eeprom.Twim

/-! # Transfers of groups

`transferLoop` is followed group by group: `fill` collects all messages of a group but the last one,
and the last one is transferred with them (`follows_carry`).  `transfer_refines` puts the groups
together, and `transfer_none_iff` says which lists of messages the copying runs off. -/

namespace NanoDrone.Twim

/-! ### Before the transfer -/

section
variable {β : Type} {c : Config} {t : Peripheral β} {addr : ℕ}

/-- The messages of a group go the same way. -/
theorem read_eq_last {init : List I2cMsg} {last : I2cMsg}
    (hchain : (init ++ [last]).IsChain fun m n => m.joins n) : ∀ m ∈ init, m.read = last.read := by
  induction init with
  | nil => exact fun _ hm => absurd hm List.not_mem_nil
  | cons m init ih =>
      have hrest := ih hchain.tail
      have hnext : ∀ n ∈ (init ++ [last]).head?, m.read = n.read := by
        intro n hn
        have hjoins := (List.isChain_cons.mp hchain).1 n hn
        unfold I2cMsg.joins at hjoins
        simp only [Bool.and_eq_true, beq_iff_eq] at hjoins
        exact hjoins.2
      rw [List.forall_mem_cons]
      refine ⟨?_, hrest⟩
      cases init with
      | nil => exact hnext last rfl
      | cons n init => exact (hnext n rfl).trans (hrest n List.mem_cons_self)

/-- A step of the loop for a message that the next one joins. -/
theorem transferLoop_join {m : I2cMsg} {rest : List I2cMsg} (hm : m.Valid c)
    (hconcat : c.concatBufSize < 2 ^ 16) (hjoins : rest.head?.any m.joins = true)
    (before : List I2cMsg) {used : ℕ} (hused : used ≤ c.concatBufSize) (s : TwimState β) :
    transferLoop c t addr before (m :: rest) used s =
      if used + m.len ≤ c.concatBufSize then
        transferLoop c t addr (m :: before) rest (used + m.len)
          { s with
            memory := if m.read then s.memory
              else s.memory.write (c.msgBuf + used) (m.data s.memory) }
      else some (.enospc, s) := by
  have hlen := hm.len
  have hmod : (used + m.len) % 2 ^ 32 = used + m.len := Nat.mod_eq_of_lt (by omega)
  rw [transferLoop, if_neg (by rw [hm.addr]; decide)]
  simp only [hjoins, collect, true_or, ↓reduceIte, hmod]
  by_cases hfits : used + m.len ≤ c.concatBufSize
  · have hmod' : (used + m.len) % 2 ^ 16 = used + m.len := Nat.mod_eq_of_lt (by omega)
    rw [if_neg (by omega), if_pos hfits, hmod']
  · rw [if_pos (by omega), if_neg hfits]

/-- The memory after a message was collected. -/
theorem collected {m : I2cMsg} {used : ℕ} (hfits : used + m.len ≤ c.concatBufSize)
    (memory : Bytes) :
    Same c memory (if m.read then memory else memory.write (c.msgBuf + used) (m.data memory)) ∧
    (m.read = false →
      (if m.read then memory else memory.write (c.msgBuf + used) (m.data memory)).slice c.msgBuf
        (used + m.len) = memory.slice c.msgBuf used ++ m.data memory) := by
  have hsize : c.concatBufSize ≤ c.msgBufSize := Nat.le_max_left _ _
  constructor
  · split
    · exact .refl _
    · apply Same.write_buffer
      · omega
      · rw [data_length]
        omega
  · intro hread
    rw [if_neg (by rw [hread]; decide), Bytes.slice_append,
      Bytes.slice_write_of_disjoint _ (by omega)]
    have hself := Bytes.slice_write_self memory (c.msgBuf + used) (m.data memory)
    rw [data_length] at hself
    rw [hself]

/-- All messages of a group but the last one are collected, as far as there is room. -/
theorem fill {init : List I2cMsg} {last : I2cMsg} (hinit : ∀ m ∈ init, m.Valid c)
    (hconcat : c.concatBufSize < 2 ^ 16)
    (hchain : (init ++ [last]).IsChain fun m n => m.joins n) (rest before : List I2cMsg) {used : ℕ}
    (hused : used ≤ c.concatBufSize) (memory : Bytes) (b : β) :
    (used + total init ≤ c.concatBufSize →
      ∃ memory', transferLoop c t addr before (init ++ last :: rest) used ⟨memory, b⟩ =
          transferLoop c t addr (init.reverse ++ before) (last :: rest) (used + total init)
            ⟨memory', b⟩ ∧ Same c memory memory' ∧
        (last.read = false → memory'.slice c.msgBuf (used + total init) =
          memory.slice c.msgBuf used ++ gather init memory)) ∧
    (c.concatBufSize < used + total init →
      ∃ memory', transferLoop c t addr before (init ++ last :: rest) used ⟨memory, b⟩ =
        some (.enospc, ⟨memory', b⟩) ∧ Same c memory memory') := by
  induction init generalizing before used memory with
  | nil =>
      refine ⟨fun _ => ⟨memory, rfl, .refl _, fun _ => (List.append_nil _).symm⟩, fun hfull => ?_⟩
      rw [total_nil] at hfull
      omega
  | cons m init ih =>
      have hdir := read_eq_last hchain m List.mem_cons_self
      have hjoins : (init ++ last :: rest).head?.any m.joins = true := by
        have hnext := (List.isChain_cons.mp hchain).1
        cases init with
        | nil => exact hnext last rfl
        | cons n init => exact hnext n rfl
      rw [List.forall_mem_cons] at hinit
      have hcons : total (m :: init) = m.len + total init := total_cons m init
      rw [List.cons_append, transferLoop_join hinit.1 hconcat hjoins before hused]
      by_cases hfits : used + m.len ≤ c.concatBufSize
      · rw [if_pos hfits]
        obtain ⟨hsame, hslice⟩ := collected hfits memory
        obtain ⟨hok, hno⟩ := ih hinit.2 hchain.tail (m :: before) hfits
          (if m.read then memory else memory.write (c.msgBuf + used) (m.data memory))
        rw [hcons, ← Nat.add_assoc]
        constructor
        · intro hroom
          obtain ⟨memory', heq, hsame', hslice'⟩ := hok hroom
          refine ⟨memory', ?_, hsame.trans hsame', fun hwrite => ?_⟩
          · rw [List.reverse_cons, List.append_assoc]
            exact heq
          · have hgather : gather (m :: init) memory = m.data memory ++ gather init memory :=
              List.flatMap_cons
            rw [hslice' hwrite, hslice (hdir.trans hwrite), ← hsame.gather hinit.2, hgather,
              List.append_assoc]
        · intro hfull
          obtain ⟨memory', heq, hsame'⟩ := hno hfull
          exact ⟨memory', heq, hsame.trans hsame'⟩
      · rw [if_neg hfits]
        refine ⟨fun hroom => ?_, fun _ => ⟨memory, rfl, .refl _⟩⟩
        rw [hcons] at hroom
        omega

/-! ### The transfer -/

/-- The step of the loop for the last message of a group. -/
theorem transferLoop_last {last : I2cMsg} {rest : List I2cMsg} (hlast : last.addr10Bits = false)
    (hend : rest.head?.any last.joins = false) (before : List I2cMsg) {used used' : ℕ}
    {s : TwimState β} {memory : Bytes}
    (hcollect : collect c last false used s.memory = .ok (used', memory)) {r : Ret × TwimState β}
    (hexchange : exchange c t addr before last used' { s with memory := memory } = some r) :
    transferLoop c t addr before (last :: rest) used s =
      if r.1 = .ok then transferLoop c t addr (last :: before) rest 0 r.2 else some r := by
  rw [transferLoop, if_neg (by rw [hlast]; decide)]
  simp only [hend, hcollect, hexchange, Bool.false_eq_true, ↓reduceIte]

theorem transferLoop_refused {last : I2cMsg} {rest : List I2cMsg} (hlast : last.addr10Bits = false)
    (hend : rest.head?.any last.joins = false) (before : List I2cMsg) {used : ℕ}
    {s : TwimState β} {e : Ret} (hcollect : collect c last false used s.memory = .error e) :
    transferLoop c t addr before (last :: rest) used s = some (e, s) := by
  rw [transferLoop, if_neg (by rw [hlast]; decide)]
  simp only [hend, hcollect]

/-- A message from where it lies. -/
theorem exchange_direct {m : I2cMsg} (hne : m.buf ≠ c.msgBuf) (before : List I2cMsg)
    (s : TwimState β) :
    exchange c t addr before m 0 s =
      let r := t.xfer ⟨addr, m.read, if m.read then [] else m.data s.memory, m.len, m.stop⟩ s.bus
      some (r.1.1.ret, ⟨if m.read then s.memory.write m.buf (r.1.2.take m.len) else s.memory,
        r.2⟩) := by
  unfold exchange I2cMsg.data
  simp only [↓reduceIte, hne, and_false]
  generalize t.xfer _ s.bus = r
  by_cases hdone : r.1.1 = .done
  · rw [if_neg (not_not.mpr hdone), hdone]
    rfl
  · rw [if_pos hdone]

/-- What is sent from the buffer. -/
theorem exchange_send {m : I2cMsg} (hread : m.read = false) (before : List I2cMsg) {used : ℕ}
    (hused : used ≠ 0) (s : TwimState β) :
    exchange c t addr before m used s =
      let r := t.xfer ⟨addr, false, s.memory.slice c.msgBuf used, used, m.stop⟩ s.bus
      some (r.1.1.ret, ⟨s.memory, r.2⟩) := by
  unfold exchange
  simp only [hread, hused, Bool.false_eq_true, ↓reduceIte, false_and]
  generalize t.xfer _ s.bus = r
  by_cases hdone : r.1.1 = .done
  · rw [if_neg (not_not.mpr hdone), hdone]
    rfl
  · rw [if_pos hdone]

/-- A message that is sent from flash goes through the buffer. -/
theorem collect_flash {m : I2cMsg} (hflash : c.flashBufMaxSize < 2 ^ 16)
    (hread : m.read = false) (hram : c.nrfxIsInRam m.buf = false) (memory : Bytes) :
    collect c m false 0 memory =
      if m.len > c.flashBufMaxSize then .error .einval
      else .ok (m.len, memory.write c.msgBuf (m.data memory)) := by
  unfold collect
  simp only [hread, hram, Bool.false_eq_true, ne_eq, not_true_eq_false, or_self, Bool.not_false,
    and_self, ↓reduceIte]
  by_cases hfits : m.len > c.flashBufMaxSize
  · rw [if_pos hfits, if_pos hfits]
  · rw [if_neg hfits, if_neg hfits, Nat.mod_eq_of_lt (by omega)]

theorem collect_ram {m : I2cMsg} (h : ¬ (m.read = false ∧ c.nrfxIsInRam m.buf = false))
    (memory : Bytes) : collect c m false 0 memory = .ok (0, memory) := by
  have hnot : ¬ ((!m.read) = true ∧ (!c.nrfxIsInRam m.buf) = true) := by
    simpa only [Bool.not_eq_true'] using h
  unfold collect
  simp only [Bool.false_eq_true, ne_eq, not_true_eq_false, or_self, ↓reduceIte, if_neg hnot]

/-- The last message of a buffered group. -/
theorem collect_buffered {m : I2cMsg} (hm : m.Valid c) (hconcat : c.concatBufSize < 2 ^ 16)
    {used : ℕ} (hpos : used ≠ 0) (hused : used ≤ c.concatBufSize) (memory : Bytes) :
    collect c m false used memory =
      if used + m.len > c.concatBufSize then .error .enospc
      else .ok (used + m.len,
        if m.read then memory else memory.write (c.msgBuf + used) (m.data memory)) := by
  have hlen := hm.len
  unfold collect
  rw [if_pos (.inr hpos), Nat.mod_eq_of_lt (by omega : used + m.len < 2 ^ 32)]
  by_cases hfits : used + m.len > c.concatBufSize
  · rw [if_pos hfits, if_pos hfits]
  · rw [if_neg hfits, if_neg hfits, Nat.mod_eq_of_lt (by omega)]

/-- What is received through the buffer for a group is copied back, unless the loop runs off. -/
theorem exchange_receive_eq {init : List I2cMsg} {last : I2cMsg} (ht : t.Complete)
    (hg : ∀ m ∈ init ++ [last], m.Valid c) (hsize : total (init ++ [last]) ≤ c.msgBufSize)
    (hread : last.read = true) (hpos : total (init ++ [last]) ≠ 0) (before : List I2cMsg)
    (s : TwimState β) :
    exchange c t addr (init.reverse ++ before) last (total (init ++ [last])) s =
      let r := t.xfer ⟨addr, true, [], total (init ++ [last]), last.stop⟩ s.bus
      let memory := s.memory.write c.msgBuf (r.1.2.take (total (init ++ [last])))
      if r.1.1 = .done then
        if 0 < total before then some (.ok, ⟨scatter (init ++ [last]) r.1.2 memory, r.2⟩) else none
      else some (r.1.1.ret, ⟨memory, r.2⟩) := by
  have hlength := ht ⟨addr, true, [], total (init ++ [last]), last.stop⟩ s.bus rfl
  have hback := @copyBack_group c _ hg hsize before
  rw [List.reverse_append, List.reverse_singleton, List.singleton_append] at hback
  unfold exchange
  simp only [hread, hpos, ↓reduceIte, true_and]
  generalize t.xfer _ s.bus = r at hlength ⊢
  by_cases hdone : r.1.1 = .done
  · have hlen : r.1.2.length = total (init ++ [last]) := hlength hdone
    have hslice := Bytes.slice_write_self s.memory c.msgBuf r.1.2
    have hcopied := hback (s.memory.write c.msgBuf r.1.2)
    rw [hlen] at hslice
    rw [hslice, copyBack_zero, List.cons_append] at hcopied
    rw [if_neg (not_not.mpr hdone), if_pos hdone, List.take_of_length_le hlen.le, hcopied]
    by_cases hguard : 0 < total before
    · rw [if_pos hguard, if_pos hguard]
    · rw [if_neg hguard, if_neg hguard]
  · rw [if_pos hdone, if_neg hdone]

theorem exchange_receive {init : List I2cMsg} {last : I2cMsg} (ht : t.Complete)
    (hg : ∀ m ∈ init ++ [last], m.Valid c) (hsize : total (init ++ [last]) ≤ c.msgBufSize)
    (hread : last.read = true) (hpos : total (init ++ [last]) ≠ 0) {before : List I2cMsg}
    (hguard : 0 < total before) (s : TwimState β) :
    let r := t.xfer ⟨addr, true, [], total (init ++ [last]), last.stop⟩ s.bus
    ∃ memory, Same c (if r.1.1 = .done then scatter (init ++ [last]) r.1.2 s.memory
        else s.memory) memory ∧
      exchange c t addr (init.reverse ++ before) last (total (init ++ [last])) s =
        some (r.1.1.ret, ⟨memory, r.2⟩) := by
  intro r
  have hwrite : Same c s.memory
      (s.memory.write c.msgBuf (r.1.2.take (total (init ++ [last])))) := by
    apply Same.write_buffer
    · exact Nat.le_refl _
    · have := List.length_take_le (total (init ++ [last])) r.1.2
      omega
  rw [exchange_receive_eq ht hg hsize hread hpos]
  dsimp only
  by_cases hdone : r.1.1 = .done
  · rw [if_pos hdone, if_pos hdone, if_pos hguard]
    refine ⟨_, hwrite.scatter _, ?_⟩
    rw [hdone]
    rfl
  · rw [if_neg hdone, if_neg hdone]
    exact ⟨_, hwrite, rfl⟩

/-! ### A group -/

/-- The driver has carried a group as it should and is at the messages after it, or it has returned
what it should; the memories are the same but for the buffer. -/
def Follows (c : Config) (t : Peripheral β) (addr : ℕ) (before rest : List I2cMsg)
    (x : Option (Ret × TwimState β)) (r : Ret × TwimState β) : Prop :=
  ∃ memory, Same c r.2.memory memory ∧
    x = if r.1 = .ok then transferLoop c t addr before rest 0 ⟨memory, r.2.bus⟩
      else some (r.1, ⟨memory, r.2.bus⟩)

/-- A group that is not buffered: its other messages are empty. -/
theorem carry_unbuffered {init : List I2cMsg} {last : I2cMsg} (hzero : total init = 0)
    (s : TwimState β) :
    carry c t addr (init ++ [last]) last s =
      if last.read = false ∧ c.nrfxIsInRam last.buf = false ∧ last.len > c.flashBufMaxSize then
        (.einval, s)
      else
        let r := t.xfer ⟨addr, last.read, if last.read then [] else last.data s.memory, last.len,
          last.stop⟩ s.bus
        (r.1.1.ret, ⟨if last.read then s.memory.write last.buf (r.1.2.take last.len) else s.memory,
          r.2⟩) := by
  have hbuf : ¬ Buffered (init ++ [last]) := by
    unfold Buffered
    rw [List.dropLast_concat]
    exact not_not.mpr hzero
  have htotal : total (init ++ [last]) = last.len := by
    rw [total_append, hzero, total_cons, total_nil, Nat.add_zero, Nat.zero_add]
  have hgather : gather (init ++ [last]) s.memory = last.data s.memory := by
    have hnil : gather init s.memory = [] := List.length_eq_zero_iff.mp (by rw [gather_length, hzero])
    rw [gather_append, gather_singleton, hnil, List.nil_append]
  have hscatter : ∀ received, scatter (init ++ [last]) received s.memory =
      s.memory.write last.buf (received.take last.len) := by
    intro received
    rw [scatter_append, hzero, List.drop_zero, scatter_empty hzero]
  unfold carry refusal
  rw [if_neg hbuf]
  by_cases hflash : last.read = false ∧ c.nrfxIsInRam last.buf = false ∧
      last.len > c.flashBufMaxSize
  · rw [if_pos hflash, if_pos hflash]
  · rw [if_neg hflash, if_neg hflash]
    simp only [htotal, hgather, hscatter, hbuf, false_and, or_false]
    cases last.read <;> rfl

/-- A group with something before its last message. -/
theorem carry_buffered {init : List I2cMsg} {last : I2cMsg} (hpos : total init ≠ 0)
    (s : TwimState β) :
    carry c t addr (init ++ [last]) last s =
      if total (init ++ [last]) > c.concatBufSize then (.enospc, s)
      else
        let r := t.xfer ⟨addr, last.read, if last.read then [] else gather (init ++ [last]) s.memory,
          total (init ++ [last]), last.stop⟩ s.bus
        (r.1.1.ret, ⟨if last.read ∧ r.1.1 = .done then scatter (init ++ [last]) r.1.2 s.memory
          else s.memory, r.2⟩) := by
  have hbuf : Buffered (init ++ [last]) := by
    unfold Buffered
    rwa [List.dropLast_concat]
  unfold carry refusal
  rw [if_pos hbuf]
  by_cases hfull : total (init ++ [last]) > c.concatBufSize
  · rw [if_pos hfull, if_pos hfull]
  · rw [if_neg hfull, if_neg hfull]
    simp only [hbuf, true_and]
    cases last.read with
    | false => simp
    | true => simp [ite_not]

/-- What the memory before the last message was good for is good for the driver. -/
theorem Follows.of_exchange {init : List I2cMsg} {last : I2cMsg} {rest before : List I2cMsg}
    (hlast : last.Valid c) (hend : rest.head?.any last.joins = false) {used used' : ℕ}
    {memory memory' memory'' : Bytes} {b b' : β} {ret : Ret} {spec : Bytes}
    (hcollect : collect c last false used memory = .ok (used', memory'))
    (hexchange : exchange c t addr (init.reverse ++ before) last used' ⟨memory', b⟩ =
      some (ret, ⟨memory'', b'⟩)) (hsame : Same c spec memory'') :
    Follows c t addr ((init ++ [last]).reverse ++ before) rest
      (transferLoop c t addr (init.reverse ++ before) (last :: rest) used ⟨memory, b⟩)
      (ret, ⟨spec, b'⟩) := by
  refine ⟨memory'', hsame, ?_⟩
  rw [transferLoop_last hlast.addr hend _ hcollect hexchange, List.reverse_append,
    List.reverse_singleton, List.singleton_append]
  rfl

/-- A group that is not buffered. -/
theorem follows_unbuffered {init : List I2cMsg} {last : I2cMsg} {rest before : List I2cMsg}
    (hlast : last.Valid c) (hflash : c.flashBufMaxSize < 2 ^ 16)
    (hend : rest.head?.any last.joins = false) (hzero : total init = 0) {memory memory' : Bytes}
    (hsame : Same c memory memory') (b : β) :
    Follows c t addr ((init ++ [last]).reverse ++ before) rest
      (transferLoop c t addr (init.reverse ++ before) (last :: rest) 0 ⟨memory', b⟩)
      (carry c t addr (init ++ [last]) last ⟨memory, b⟩) := by
  have hsize : c.flashBufMaxSize ≤ c.msgBufSize := Nat.le_max_right _ _
  rw [carry_unbuffered hzero]
  by_cases hrom : last.read = false ∧ c.nrfxIsInRam last.buf = false
  · obtain ⟨hread, hram⟩ := hrom
    have hcollect := collect_flash hflash hread hram memory'
    by_cases hfull : last.len > c.flashBufMaxSize
    · rw [if_pos hfull] at hcollect
      rw [if_pos ⟨hread, hram, hfull⟩]
      exact ⟨memory', hsame, transferLoop_refused hlast.addr hend _ hcollect⟩
    · rw [if_neg hfull] at hcollect
      rw [if_neg (fun h => hfull h.2.2), hsame.data hlast]
      have hbuffer : Same c memory' (memory'.write c.msgBuf (last.data memory')) := by
        apply Same.write_buffer
        · exact Nat.le_refl _
        · rw [data_length]
          omega
      have hself := Bytes.slice_write_self memory' c.msgBuf (last.data memory')
      rw [data_length] at hself
      simp only [hread, Bool.false_eq_true, ↓reduceIte]
      refine Follows.of_exchange hlast hend hcollect ?_ (hsame.trans hbuffer)
      by_cases hempty : last.len = 0
      · rw [hempty, exchange_direct hlast.ne, hread]
        have hnil : ∀ x, last.data x = [] := fun x => by
          unfold I2cMsg.data
          rw [hempty, Bytes.slice_zero]
        simp only [hnil, hempty, Bool.false_eq_true, ↓reduceIte]
      · rw [exchange_send hread _ hempty, hself]
  · have hcollect := collect_ram hrom memory'
    rw [if_neg (fun h => hrom ⟨h.1, h.2.1⟩), hsame.data hlast]
    refine Follows.of_exchange hlast hend hcollect (exchange_direct hlast.ne _ _) ?_
    dsimp only
    split
    · exact hsame.write _ _
    · exact hsame

/-- A buffered group, with the messages before its last one collected. -/
theorem follows_buffered {init : List I2cMsg} {last : I2cMsg} {rest before : List I2cMsg}
    (ht : t.Complete) (hg : ∀ m ∈ init ++ [last], m.Valid c) (hconcat : c.concatBufSize < 2 ^ 16)
    (hend : rest.head?.any last.joins = false) (hpos : total init ≠ 0)
    (hroom : total init ≤ c.concatBufSize) (hguard : last.read = true → 0 < total before)
    {memory memory' : Bytes} (hsame : Same c memory memory')
    (hslice : last.read = false → memory'.slice c.msgBuf (total init) = gather init memory) (b : β) :
    Follows c t addr ((init ++ [last]).reverse ++ before) rest
      (transferLoop c t addr (init.reverse ++ before) (last :: rest) (total init) ⟨memory', b⟩)
      (carry c t addr (init ++ [last]) last ⟨memory, b⟩) := by
  have hlast := hg last (List.mem_append_right _ List.mem_cons_self)
  have hinit : ∀ m ∈ init, m.Valid c := fun m hm => hg m (List.mem_append_left _ hm)
  have htotal : total (init ++ [last]) = total init + last.len := by
    rw [total_append, total_cons, total_nil, Nat.add_zero]
  have hcollect := collect_buffered hlast hconcat hpos hroom memory'
  rw [carry_buffered hpos]
  rw [← htotal] at hcollect
  by_cases hfull : total (init ++ [last]) > c.concatBufSize
  · rw [if_pos hfull] at hcollect ⊢
    exact ⟨memory', hsame, transferLoop_refused hlast.addr hend _ hcollect⟩
  · rw [if_neg hfull] at hcollect ⊢
    have hfits : total init + last.len ≤ c.concatBufSize := by omega
    have hne : total (init ++ [last]) ≠ 0 := by omega
    obtain ⟨hbuffer, hbytes⟩ := collected hfits memory'
    by_cases hread : last.read = true
    · have hsize : total (init ++ [last]) ≤ c.msgBufSize :=
        Nat.le_trans (Nat.not_lt.mp hfull) (Nat.le_max_left _ _)
      obtain ⟨memory'', hreceived, hexchange⟩ := @exchange_receive _ c t addr _ _ ht hg hsize hread
        hne _ (hguard hread) ⟨memory', b⟩
      simp only [hread, ↓reduceIte, true_and] at hcollect ⊢
      refine Follows.of_exchange hlast hend hcollect hexchange (Same.trans ?_ hreceived)
      split
      · exact hsame.scatter _
      · exact hsame
    · rw [Bool.not_eq_true] at hread
      have hall : (memory'.write (c.msgBuf + total init) (last.data memory')).slice c.msgBuf
          (total (init ++ [last])) = gather (init ++ [last]) memory := by
        have h := hbytes hread
        rw [if_neg (by rw [hread]; decide), hslice hread] at h
        rw [htotal, h, gather_append, gather_singleton, hsame.data hlast]
      simp only [hread, Bool.false_eq_true, ↓reduceIte, false_and] at hcollect hbuffer ⊢
      refine Follows.of_exchange hlast hend hcollect ?_ (hsame.trans hbuffer)
      rw [exchange_send hread _ hne, hall]

/-- **A group is one transfer.** -/
theorem follows_carry {init : List I2cMsg} {last : I2cMsg} {rest before : List I2cMsg}
    (ht : t.Complete) (hg : ∀ m ∈ init ++ [last], m.Valid c) (hconcat : c.concatBufSize < 2 ^ 16)
    (hflash : c.flashBufMaxSize < 2 ^ 16)
    (hchain : (init ++ [last]).IsChain fun m n => m.joins n)
    (hend : rest.head?.any last.joins = false)
    (hguard : last.read = true → Buffered (init ++ [last]) → 0 < total before) (memory : Bytes)
    (b : β) :
    Follows c t addr ((init ++ [last]).reverse ++ before) rest
      (transferLoop c t addr before (init ++ last :: rest) 0 ⟨memory, b⟩)
      (carry c t addr (init ++ [last]) last ⟨memory, b⟩) := by
  have hlast := hg last (List.mem_append_right _ List.mem_cons_self)
  have hinit : ∀ m ∈ init, m.Valid c := fun m hm => hg m (List.mem_append_left _ hm)
  obtain ⟨hfits, hfull⟩ := @fill _ c t addr _ _ hinit hconcat hchain rest before 0
    (Nat.zero_le _) memory b
  rw [Nat.zero_add] at hfits hfull
  by_cases hroom : total init ≤ c.concatBufSize
  · obtain ⟨memory', heq, hsame, hslice⟩ := hfits hroom
    rw [heq]
    by_cases hzero : total init = 0
    · rw [hzero]
      exact follows_unbuffered hlast hflash hend hzero hsame b
    · have hbuf : Buffered (init ++ [last]) := by
        unfold Buffered
        rwa [List.dropLast_concat]
      exact follows_buffered ht hg hconcat hend hzero hroom (fun hread => hguard hread hbuf) hsame
        hslice b
  · obtain ⟨memory', heq, hsame⟩ := hfull (Nat.lt_of_not_le hroom)
    have hpos : total init ≠ 0 := by omega
    have htoo : total (init ++ [last]) > c.concatBufSize := by
      rw [total_append]
      omega
    rw [heq, carry_buffered hpos, if_pos htoo]
    exact ⟨memory', hsame, rfl⟩

/-! ### All groups -/

theorem carry_same {g : List I2cMsg} {last : I2cMsg} (hg : ∀ m ∈ g, m.Valid c) {x y : Bytes}
    (h : Same c x y) (b : β) :
    (carry c t addr g last ⟨x, b⟩).1 = (carry c t addr g last ⟨y, b⟩).1 ∧
    (carry c t addr g last ⟨x, b⟩).2.bus = (carry c t addr g last ⟨y, b⟩).2.bus ∧
    Same c (carry c t addr g last ⟨x, b⟩).2.memory (carry c t addr g last ⟨y, b⟩).2.memory := by
  unfold carry
  split
  · exact ⟨rfl, rfl, h⟩
  · simp only [h.gather hg]
    refine ⟨trivial, trivial, ?_⟩
    generalize t.xfer _ b = r
    split
    · exact h
    · exact h.scatter _

theorem carryAll_cons {g : List I2cMsg} {last : I2cMsg} (hlast : g.getLast? = some last)
    (gs : List (List I2cMsg)) (s : TwimState β) :
    carryAll c t addr (g :: gs) s =
      if (carry c t addr g last s).1 = .ok then carryAll c t addr gs (carry c t addr g last s).2
      else carry c t addr g last s := by
  rw [carryAll, hlast]

/-- What a list of groups is: none is empty, the messages of one join each other, and the last one
does not join the next group. -/
structure Grouped (gs : List (List I2cMsg)) : Prop where
  nonempty : ∀ g ∈ gs, g ≠ []
  chain : ∀ g ∈ gs, g.IsChain fun m n => m.joins n
  border : gs.IsChain fun g g' => ∃ hg hg', (g.getLast hg).joins (g'.head hg') = false

theorem grouped_groups (msgs : List I2cMsg) : Grouped (groups msgs) where
  nonempty _ hg := List.ne_nil_of_mem_splitBy hg
  chain _ hg := List.isChain_of_mem_splitBy hg
  border := List.isChain_getLast_head_splitBy _ _

theorem Grouped.tail {g : List I2cMsg} {gs : List (List I2cMsg)} (h : Grouped (g :: gs)) :
    Grouped gs where
  nonempty g hg := h.nonempty g (List.mem_cons_of_mem _ hg)
  chain g hg := h.chain g (List.mem_cons_of_mem _ hg)
  border := h.border.tail

theorem flatten_groups (msgs : List I2cMsg) : (groups msgs).flatten = msgs :=
  List.flatten_splitBy _ _

theorem valid_groups {msgs : List I2cMsg} (h : ∀ m ∈ msgs, m.Valid c) :
    ∀ g ∈ groups msgs, ∀ m ∈ g, m.Valid c := by
  intro g hg m hm
  apply h
  rw [← flatten_groups msgs]
  exact List.mem_flatten_of_mem hg hm

/-- After a group the next message starts another one. -/
theorem Grouped.ends {init : List I2cMsg} {last : I2cMsg} {gs : List (List I2cMsg)}
    (h : Grouped ((init ++ [last]) :: gs)) : gs.flatten.head?.any last.joins = false := by
  cases gs with
  | nil => rfl
  | cons g gs =>
      obtain ⟨hl, hr, hborder⟩ := (List.isChain_cons.mp h.border).1 g rfl
      rw [List.getLast_concat] at hborder
      rw [List.flatten_cons, List.head?_append_of_ne_nil _ hr, List.head?_eq_some_head hr]
      exact hborder

theorem transferLoop_groups {gs : List (List I2cMsg)} (ht : t.Complete)
    (hconcat : c.concatBufSize < 2 ^ 16) (hflash : c.flashBufMaxSize < 2 ^ 16)
    (hgs : ∀ g ∈ gs, ∀ m ∈ g, m.Valid c) (h : Grouped gs) {before : List I2cMsg}
    (hguard : Guarded (total before) gs) {x y : Bytes} (hsame : Same c x y) (b : β) :
    ∃ memory, Same c (carryAll c t addr gs ⟨x, b⟩).2.memory memory ∧
      transferLoop c t addr before gs.flatten 0 ⟨y, b⟩ =
        some ((carryAll c t addr gs ⟨x, b⟩).1, ⟨memory, (carryAll c t addr gs ⟨x, b⟩).2.bus⟩) := by
  induction gs generalizing before x y b with
  | nil => exact ⟨y, hsame, rfl⟩
  | cons g gs ih =>
      rw [List.forall_mem_cons] at hgs
      obtain ⟨init, last, rfl⟩ :=
        (List.eq_nil_or_concat' g).resolve_left (h.nonempty g List.mem_cons_self)
      have hread : last.read = true → Buffered (init ++ [last]) → 0 < total before :=
        fun hr => hguard.1 ⟨last, List.mem_append_right _ List.mem_cons_self, hr⟩
      obtain ⟨memory, hstep, heq⟩ := @follows_carry _ c t addr init last gs.flatten before ht hgs.1
        hconcat hflash (h.chain _ List.mem_cons_self) h.ends hread y b
      obtain ⟨hret, hbus, hcarry⟩ := @carry_same _ c t addr _ last hgs.1 _ _ hsame b
      rw [carryAll_cons List.getLast?_concat, List.flatten_cons, List.append_assoc,
        List.singleton_append, heq, ← hret]
      by_cases hok : (carry c t addr (init ++ [last]) last ⟨x, b⟩).1 = .ok
      · rw [if_pos hok, if_pos hok, ← hbus]
        have hafter : Guarded (total ((init ++ [last]).reverse ++ before)) gs := by
          have hg := hguard.2
          rwa [Nat.add_comm, ← total_reverse (init ++ [last]), ← total_append] at hg
        exact ih hgs.2 h.tail hafter (hcarry.trans hstep) _
      · rw [if_neg hok, if_neg hok, ← hbus]
        exact ⟨memory, hcarry.trans hstep, rfl⟩

/-- **The driver carries groups.**  For every list of messages and every peripheral, whatever its
transfers end with: if every group that is read through the buffer has bytes before it, the driver
returns what carrying the groups one by one returns and has used the bus in the same way, and the
memory is the same but for its own buffer. -/
theorem transfer_refines (c : Config) (t : Peripheral β) (addr : ℕ) (msgs : List I2cMsg)
    (s : TwimState β) (ht : t.Complete) (hconcat : c.concatBufSize < 2 ^ 16)
    (hflash : c.flashBufMaxSize < 2 ^ 16) (hmsgs : ∀ m ∈ msgs, m.Valid c)
    (hguard : Guarded 0 (groups msgs)) :
    ∃ memory, Same c (carryAll c t addr (groups msgs) s).2.memory memory ∧
      transfer c t addr msgs s =
        some ((carryAll c t addr (groups msgs) s).1,
          ⟨memory, (carryAll c t addr (groups msgs) s).2.bus⟩) := by
  obtain ⟨memory, hsame, heq⟩ := @transferLoop_groups _ c t addr _ ht hconcat hflash
    (valid_groups hmsgs) (grouped_groups msgs) [] hguard _ _ (Same.refl s.memory) s.bus
  rw [flatten_groups] at heq
  exact ⟨memory, hsame, heq⟩

/-! ### Running off the messages -/

/-- A peripheral on which every transfer is done. -/
def Peripheral.Reliable (t : Peripheral β) : Prop := ∀ x s, (t.xfer x s).1.1 = .done

/-- The driver has room for the groups. -/
def HasRoom (c : Config) (gs : List (List I2cMsg)) : Prop :=
  ∀ g ∈ gs, ∀ last ∈ g.getLast?, refusal c g last = none

/-- A group with nothing before it that is read through the buffer. -/
theorem group_runs_off {init : List I2cMsg} {last : I2cMsg} {rest before : List I2cMsg}
    (ht : t.Complete) (hdone : t.Reliable) (hg : ∀ m ∈ init ++ [last], m.Valid c)
    (hconcat : c.concatBufSize < 2 ^ 16)
    (hchain : (init ++ [last]).IsChain fun m n => m.joins n)
    (hend : rest.head?.any last.joins = false) (hread : last.read = true)
    (hbuf : Buffered (init ++ [last])) (hroom : total (init ++ [last]) ≤ c.concatBufSize)
    (hbefore : total before = 0) (memory : Bytes) (b : β) :
    transferLoop c t addr before (init ++ last :: rest) 0 ⟨memory, b⟩ = none := by
  have hlast := hg last (List.mem_append_right _ List.mem_cons_self)
  have hinit : ∀ m ∈ init, m.Valid c := fun m hm => hg m (List.mem_append_left _ hm)
  have htotal : total (init ++ [last]) = total init + last.len := by
    rw [total_append, total_cons, total_nil, Nat.add_zero]
  have hpos : total init ≠ 0 := by
    unfold Buffered at hbuf
    rwa [List.dropLast_concat] at hbuf
  obtain ⟨memory', heq, -, -⟩ := (@fill _ c t addr _ _ hinit hconcat hchain rest before 0
    (Nat.zero_le _) memory b).1 (by omega)
  have hcollect := collect_buffered hlast hconcat hpos (by omega) memory'
  rw [← htotal, if_neg (by omega), if_pos hread] at hcollect
  have hexchange := @exchange_receive_eq _ c t addr _ _ ht hg
    (Nat.le_trans hroom (Nat.le_max_left _ _)) hread (by omega) before ⟨memory', b⟩
  dsimp only at hexchange
  rw [if_pos (hdone _ _), if_neg (by omega)] at hexchange
  rw [heq, Nat.zero_add, transferLoop, if_neg (by rw [hlast.addr]; decide)]
  simp only [hend, hcollect, hexchange, Bool.false_eq_true, ↓reduceIte]

theorem carry_reliable (hdone : t.Reliable) {g : List I2cMsg} {last : I2cMsg}
    (hroom : refusal c g last = none) (s : TwimState β) :
    (carry c t addr g last s).1 = .ok := by
  unfold carry
  rw [hroom]
  dsimp only
  rw [hdone]
  rfl

theorem transferLoop_runs_off {gs : List (List I2cMsg)} (ht : t.Complete) (hdone : t.Reliable)
    (hconcat : c.concatBufSize < 2 ^ 16) (hflash : c.flashBufMaxSize < 2 ^ 16)
    (hgs : ∀ g ∈ gs, ∀ m ∈ g, m.Valid c) (h : Grouped gs) (hroom : HasRoom c gs)
    {before : List I2cMsg} (hguard : ¬ Guarded (total before) gs) (memory : Bytes) (b : β) :
    transferLoop c t addr before gs.flatten 0 ⟨memory, b⟩ = none := by
  induction gs generalizing before memory b with
  | nil => exact absurd trivial hguard
  | cons g gs ih =>
      unfold HasRoom at hroom ih
      rw [List.forall_mem_cons] at hgs hroom
      obtain ⟨init, last, rfl⟩ :=
        (List.eq_nil_or_concat' g).resolve_left (h.nonempty g List.mem_cons_self)
      have hchain := h.chain _ List.mem_cons_self
      have hrefusal := hroom.1 last List.getLast?_concat
      rw [List.flatten_cons, List.append_assoc, List.singleton_append]
      by_cases hhead : last.read = true → Buffered (init ++ [last]) → 0 < total before
      · obtain ⟨memory', -, heq⟩ := @follows_carry _ c t addr init last gs.flatten before ht hgs.1
          hconcat hflash hchain h.ends hhead memory b
        rw [heq, if_pos (carry_reliable hdone hrefusal _)]
        refine ih hgs.2 h.tail hroom.2 (fun hafter => hguard ⟨?_, ?_⟩) _ _
        · rintro ⟨m, hm, hr⟩
          rw [List.mem_append, List.mem_singleton] at hm
          rcases hm with hm | rfl
          · exact hhead ((read_eq_last hchain m hm).symm.trans hr)
          · exact hhead hr
        · rwa [Nat.add_comm, ← total_reverse (init ++ [last]), ← total_append]
      · rw [Classical.not_imp, Classical.not_imp, Nat.not_lt, Nat.le_zero] at hhead
        obtain ⟨hread, hbuf, hbefore⟩ := hhead
        unfold refusal at hrefusal
        rw [if_pos hbuf] at hrefusal
        have hfits : total (init ++ [last]) ≤ c.concatBufSize := by
          by_contra hfull
          rw [if_pos (Nat.lt_of_not_le hfull)] at hrefusal
          cases hrefusal
        exact group_runs_off ht hdone hgs.1 hconcat hchain h.ends hread hbuf hfits hbefore memory b

/-- **When the copying runs off the messages.**  For every list of messages with 7-bit addresses and
buffers apart from the driver's own that it has room for, on a bus without errors, it reads `msgs[-1]`
if and only if a group is read through the buffer with no bytes before it. -/
theorem transfer_none_iff (c : Config) (t : Peripheral β) (addr : ℕ) (msgs : List I2cMsg)
    (s : TwimState β) (ht : t.Complete) (hdone : t.Reliable) (hconcat : c.concatBufSize < 2 ^ 16)
    (hflash : c.flashBufMaxSize < 2 ^ 16) (hmsgs : ∀ m ∈ msgs, m.Valid c)
    (hroom : HasRoom c (groups msgs)) :
    transfer c t addr msgs s = none ↔ ¬ Guarded 0 (groups msgs) := by
  have hvalid := valid_groups hmsgs
  constructor
  · intro hnone hguard
    obtain ⟨memory, -, heq⟩ := @transferLoop_groups _ c t addr _ ht hconcat hflash hvalid
      (grouped_groups msgs) [] hguard _ _ (Same.refl s.memory) s.bus
    rw [flatten_groups] at heq
    exact Option.some_ne_none _ (heq.symm.trans hnone)
  · intro hguard
    have hoff := @transferLoop_runs_off _ c t addr _ ht hdone hconcat hflash hvalid
      (grouped_groups msgs) hroom [] hguard s.memory s.bus
    rwa [flatten_groups] at hoff

end

/-- A peripheral that keeps what it was asked for, and receives zeros. -/
def recorder : Peripheral (List Xfer) where
  xfer x s := ((.done, List.replicate x.length 0), s ++ [x])

/-- A buffer of four bytes. -/
def fourBytes : Config := ⟨4, 0, 100, fun _ => true⟩

/-- A register address and two bytes for it are three bytes in the buffer. -/
theorem transfer_refines_small :
    let msgs := [⟨0, 1, false, false, false, false⟩, ⟨8, 2, false, true, false, false⟩]
    ∃ memory, Same fourBytes
        (carryAll fourBytes recorder 0x50 (groups msgs) ⟨fun _ => 7, []⟩).2.memory memory ∧
      transfer fourBytes recorder 0x50 msgs ⟨fun _ => 7, []⟩ =
        some ((carryAll fourBytes recorder 0x50 (groups msgs) ⟨fun _ => 7, []⟩).1,
          ⟨memory, (carryAll fourBytes recorder 0x50 (groups msgs) ⟨fun _ => 7, []⟩).2.bus⟩) :=
  transfer_refines fourBytes recorder 0x50 _ _ (fun _ _ _ _ => List.length_replicate) (by decide)
    (by decide) (List.forall_mem_cons.mpr ⟨⟨by decide, by decide, by decide, rfl⟩,
      List.forall_mem_singleton.mpr ⟨by decide, by decide, by decide, rfl⟩⟩) (by decide)

/-- Two reads that belong together, with nothing before them. -/
theorem transfer_none_small :
    let msgs := [⟨0, 1, true, false, false, false⟩, ⟨8, 2, true, true, false, false⟩]
    transfer fourBytes recorder 0x50 msgs ⟨fun _ => 7, []⟩ = none ↔ ¬ Guarded 0 (groups msgs) :=
  transfer_none_iff fourBytes recorder 0x50 _ _ (fun _ _ _ _ => List.length_replicate)
    (fun _ _ => rfl) (by decide) (by decide)
    (List.forall_mem_cons.mpr ⟨⟨by decide, by decide, by decide, rfl⟩,
      List.forall_mem_singleton.mpr ⟨by decide, by decide, by decide, rfl⟩⟩)
    (by unfold HasRoom; decide)

end NanoDrone.Twim
