import Tmux.Client.Imsg

/-!
# Messages are delivered

One end of a connection composes messages and writes them to a socket, and the other end reads and takes them
(`ImsgLink`), in any order and with any numbers of bytes (`ImsgEvent`).

What has been read, is in the socket or is queued is a stream that carries the messages that are not taken yet
(`ImsgLink.Carrying`): they are there in order, and the descriptor of each is there no later than its bytes.
-/

namespace Tmux

open Stream

/-- The two ends of a connection, and what is in the socket between them. -/
structure ImsgLink where
  sender : Imsgbuf
  channel : List (Segment ℕ UInt8)
  receiver : Imsgbuf

/-- What the ends do. -/
inductive ImsgEvent
  | compose (type peerid pid : UInt32) (fd : Option ℕ) (data : List UInt8)
  | write (result : SendResult)
  | read (result : RecvResult)
  | get

/-- The link after an event, with what is got. -/
def ImsgLink.step (l : ImsgLink) : ImsgEvent → ImsgLink × List ImsgGet
  | .compose type peerid pid fd data => ({ l with sender := (imsgCompose l.sender type peerid pid fd data).1 }, [])
  | .write result =>
    let (w, sent, _) := msgbufWrite l.sender.w result
    ({ l with sender := { l.sender with w }, channel := l.channel ++ sent }, [])
  | .read result =>
    let (receiver, channel, _) := imsgRead l.receiver l.channel result
    ({ l with channel, receiver }, [])
  | .get =>
    let (got, receiver) := imsgGet l.receiver
    ({ l with receiver }, [got])

def ImsgLink.run : ImsgLink → List ImsgEvent → ImsgLink × List ImsgGet
  | l, [] => (l, [])
  | l, event :: events =>
    let (l, got) := l.step event
    let (l, rest) := l.run events
    (l, got ++ rest)

/-- A connection that has just been made, with the process numbers of its ends. -/
def ImsgLink.init (pid pid' : UInt32) : ImsgLink := ⟨imsgInit pid, [], imsgInit pid'⟩

/-- The message that is got, if any. -/
def ImsgGet.message? : ImsgGet → Option Imsg
  | .message imsg => some imsg
  | _ => none

/-- The message composed from some data by the process `own`. -/
def Imsg.made (own type peerid pid : UInt32) (fd : Option ℕ) (data : List UInt8) : Imsg :=
  ⟨⟨type, UInt16.ofNat (imsgHeaderSize + data.length), if fd = none then 0 else imsgfHasfd, peerid,
    if pid = 0 then own else pid⟩, fd, data⟩

/-- The message that an event composes, unless it is too long. The number of bytes of data is a word of 16 bits. -/
def ImsgEvent.composed (own : UInt32) : ImsgEvent → Option Imsg
  | .compose type peerid pid fd data =>
    let data := data.take (data.length % 65536)
    if data.length ≤ maxImsgsize - imsgHeaderSize then some (.made own type peerid pid fd data) else none
  | _ => none

/-- A message says in its header how long it is, and whether it has a descriptor. -/
structure Imsg.Proper (m : Imsg) : Prop where
  len : m.hdr.len.toNat = imsgHeaderSize + m.data.length
  short : imsgHeaderSize + m.data.length ≤ maxImsgsize
  flags : m.hdr.flags &&& imsgfHasfd ≠ 0 ↔ m.fd ≠ none

/-- A message on its way. -/
def Imsg.segment (m : Imsg) : Segment ℕ UInt8 := ⟨m.fd.toList, m.hdr.bytes ++ m.data⟩

/-- What of a buffer is not written. -/
def Ibuf.segment (buf : Ibuf) : Segment ℕ UInt8 := ⟨buf.fd.toList, buf.buf.drop buf.rpos⟩

/-- The messages that are not taken yet are on their way. -/
structure ImsgLink.Carrying (l : ImsgLink) (pending : List Imsg) : Prop where
  carries : Carries (⟨l.receiver.fds, l.receiver.r⟩ :: (l.channel ++ l.sender.w.bufs.map Ibuf.segment))
    (pending.map Imsg.segment)
  proper : ∀ m ∈ pending, m.Proper
  unwritten : ∀ buf ∈ l.sender.w.bufs, buf.rpos < buf.wpos
  queued : l.sender.w.queued = l.sender.w.bufs.length

variable {m : Imsg} {pending : List Imsg} {l : ImsgLink} {ibuf : Imsgbuf} {type peerid pid own : UInt32} {fd : Option ℕ}
  {data : List UInt8} {f : List ℕ} {b : List UInt8} {n q : ℕ} {bufs : List Ibuf}

theorem Imsg.Proper.made (h : imsgHeaderSize + data.length ≤ maxImsgsize) :
    (Imsg.made own type peerid pid fd data).Proper where
  len := by
    have hlt : imsgHeaderSize + data.length < 65536 := Nat.lt_of_le_of_lt h (by decide)
    exact (UInt16.toNat_ofNat' ..).trans (Nat.mod_eq_of_lt hlt)
  short := h
  flags := by cases fd <;> simp [Imsg.made, imsgfHasfd]

/-! ## Composing -/

/-- A buffer takes what its maximum allows. -/
theorem imsgAdd_of_le (buf : Ibuf) (data : List UInt8) (hsize : buf.size ≤ buf.max) (h : buf.wpos + data.length ≤ buf.max) :
    ∃ size ≤ buf.max, imsgAdd buf data = some { buf with buf := buf.buf ++ data, size } := by
  unfold imsgAdd ibufAdd
  split_ifs with hlen hfit
  · exact ⟨_, h, by rw [ibufRealloc, if_neg (Nat.not_lt.2 h)]; rfl⟩
  · exact ⟨_, hsize, rfl⟩
  · obtain rfl := List.length_eq_zero_iff.1 (not_not.1 hlen)
    exact ⟨_, hsize, by rw [List.append_nil]⟩

theorem imsgAdd_of_lt {buf : Ibuf} (hsize : buf.size ≤ buf.max) (hdata : data.length ≠ 0)
    (h : buf.max < buf.wpos + data.length) : imsgAdd buf data = none := by
  rw [imsgAdd, if_pos hdata, ibufAdd, if_pos (by omega), ibufRealloc, if_pos h]
  rfl

/-- A buffer is created with room for a header, even where the sum of its size and that of the data goes round. -/
theorem imsgCreate_of_le (ibuf : Imsgbuf) (type peerid pid : UInt32) {datalen : UInt16}
    (h : (datalen + UInt16.ofNat imsgHeaderSize).toNat ≤ maxImsgsize) :
    ∃ size ≤ maxImsgsize, imsgCreate ibuf type peerid pid datalen =
      some ⟨ImsgHdr.bytes ⟨type, 0, 0, peerid, if pid = 0 then ibuf.pid else pid⟩, size, maxImsgsize, 0, none⟩ := by
  generalize hhdr : (⟨type, 0, 0, peerid, if pid = 0 then ibuf.pid else pid⟩ : ImsgHdr) = hdr
  have hdyn : ibufDynamic (datalen + UInt16.ofNat imsgHeaderSize).toNat maxImsgsize =
      some ⟨[], (datalen + UInt16.ofNat imsgHeaderSize).toNat, maxImsgsize, 0, none⟩ := if_neg (Nat.not_lt.2 h)
  have hroom : 0 + hdr.bytes.length ≤ maxImsgsize := by
    rw [ImsgHdr.length_bytes]
    decide
  obtain ⟨size, hsize, hadd⟩ := imsgAdd_of_le
    ⟨[], (datalen + UInt16.ofNat imsgHeaderSize).toNat, maxImsgsize, 0, none⟩ hdr.bytes h hroom
  refine ⟨size, hsize, ?_⟩
  rw [imsgCreate]
  dsimp only
  rw [if_neg (Nat.not_lt.2 h), hhdr, hdyn]
  exact hadd

/-- Closing a buffer makes its header that of the message. -/
theorem imsgClose_eq {size max : ℕ} :
    ∃ buf : Ibuf, buf.rpos < buf.wpos ∧ buf.segment = (Imsg.made own type peerid pid fd data).segment ∧
      imsgClose ibuf
        ⟨ImsgHdr.bytes ⟨type, 0, 0, peerid, if pid = 0 then own else pid⟩ ++ data, size, max, 0, fd⟩ =
        { ibuf with w := ibufEnqueue ibuf.w buf } := by
  refine ⟨⟨(Imsg.made own type peerid pid fd data).hdr.bytes ++ data, size, max, 0, fd⟩, ?_, rfl, ?_⟩
  · simp only [Ibuf.wpos, List.length_append, ImsgHdr.length_bytes, imsgHeaderSize]
    omega
  · have hdrop : (ImsgHdr.bytes ⟨type, 0, 0, peerid, if pid = 0 then own else pid⟩ ++ data).drop imsgHeaderSize =
        data := List.drop_left' (ImsgHdr.length_bytes _)
    simp only [imsgClose, ImsgHdr.read_bytes, hdrop, Imsg.made, Ibuf.wpos, List.length_append, ImsgHdr.length_bytes]
    cases fd <;> rfl

/-- Composing queues the message, unless it is too long. -/
theorem imsgCompose_eq (ibuf : Imsgbuf) (type peerid pid : UInt32) (fd : Option ℕ) (data : List UInt8) :
    match ImsgEvent.composed ibuf.pid (.compose type peerid pid fd data) with
    | none => imsgCompose ibuf type peerid pid fd data = (ibuf, -1)
    | some m => ∃ buf : Ibuf, buf.rpos < buf.wpos ∧ buf.segment = m.segment ∧ m.Proper ∧
        imsgCompose ibuf type peerid pid fd data = ({ ibuf with w := ibufEnqueue ibuf.w buf }, 1) := by
  have hnat : (UInt16.ofNat data.length).toNat = data.length % 65536 := UInt16.toNat_ofNat' ..
  have hlt : data.length % 65536 < 65536 := Nat.mod_lt _ (by decide)
  have hlen : (data.take (data.length % 65536)).length = data.length % 65536 := by
    rw [List.length_take]
    exact Nat.min_eq_left (Nat.mod_le _ _)
  have hsum : (UInt16.ofNat data.length + UInt16.ofNat imsgHeaderSize).toNat =
      (data.length % 65536 + 16) % 65536 := by
    rw [UInt16.toNat_add, hnat]
    rfl
  rw [imsgCompose, hnat, ImsgEvent.composed, hlen]
  generalize data.length % 65536 = d at hlen hlt hsum ⊢
  generalize data.take d = data' at hlen ⊢
  generalize UInt16.ofNat data.length = datalen at hsum ⊢
  subst hlen
  by_cases hcreate : (datalen + UInt16.ofNat imsgHeaderSize).toNat ≤ maxImsgsize
  · obtain ⟨size, hsize, heq⟩ := imsgCreate_of_le ibuf type peerid pid hcreate
    rw [heq]
    dsimp only
    by_cases hfit : data'.length ≤ maxImsgsize - imsgHeaderSize
    · have hshort : imsgHeaderSize + data'.length ≤ maxImsgsize := by
        simp only [maxImsgsize, imsgHeaderSize] at hfit ⊢
        omega
      obtain ⟨size', -, hadd⟩ := imsgAdd_of_le
        ⟨ImsgHdr.bytes ⟨type, 0, 0, peerid, if pid = 0 then ibuf.pid else pid⟩, size, maxImsgsize, 0, none⟩
        data' hsize (by rw [Ibuf.wpos, ImsgHdr.length_bytes]; exact hshort)
      obtain ⟨buf, hpos, hseg, hclose⟩ := imsgClose_eq
      rw [if_pos hfit, hadd]
      exact ⟨buf, hpos, hseg, .made hshort, by rw [← hclose]⟩
    · -- the sum went round, and the data do not fit
      have hlong : maxImsgsize < imsgHeaderSize + data'.length := by
        simp only [maxImsgsize, imsgHeaderSize] at hfit ⊢
        omega
      rw [if_neg hfit, imsgAdd_of_lt hsize (by simp only [maxImsgsize, imsgHeaderSize] at hlong; omega)
        (by rw [Ibuf.wpos, ImsgHdr.length_bytes]; exact hlong)]
  · have hlong : ¬ data'.length ≤ maxImsgsize - imsgHeaderSize := by
      rw [hsum] at hcreate
      simp only [maxImsgsize, imsgHeaderSize] at hcreate ⊢
      omega
    have hnone : imsgCreate ibuf type peerid pid datalen = none := by
      rw [imsgCreate]
      dsimp only
      rw [if_pos (Nat.lt_of_not_le hcreate)]
    rw [if_neg hlong, hnone]

/-! ## Writing -/

/-- What is offered to the socket is in buffers that have no descriptor of their own any more; the one that goes with
    it is the first one of what is queued. -/
theorem msgbufGather_spec (i : ℕ) (bufs : List Ibuf) :
    ∃ offered rest, (msgbufGather i bufs).2.2 = offered ++ rest ∧ (∀ buf ∈ offered, buf.fd = none) ∧
      (msgbufGather i bufs).1 = entries (offered.map Ibuf.segment) ∧
      Carries (⟨(msgbufGather i bufs).2.1.toList, []⟩ :: (offered ++ rest).map Ibuf.segment)
        (bufs.map Ibuf.segment) := by
  fun_induction msgbufGather i bufs with
  | case1 i => exact ⟨[], [], rfl, by simp, rfl, carries_nil_cons _⟩
  | case2 buf bufs =>
    refine ⟨[], { buf with fd := none } :: bufs, rfl, by simp, rfl, ?_⟩
    exact carries_cut buf.fd.toList [] (buf.buf.drop buf.rpos) (bufs.map Ibuf.segment)
  | case3 i buf bufs iov fd hfd =>
    refine ⟨[{ buf with fd := none }], bufs, rfl, by simp, by simp [Ibuf.segment, iov], ?_⟩
    have hseg : buf.segment = ⟨[fd], iov⟩ := by rw [Ibuf.segment, hfd]; rfl
    rw [List.map_cons, hseg]
    exact carries_cut [fd] [] iov (bufs.map Ibuf.segment)
  | case4 i buf bufs iov hfd iovs fd rest hrest ih =>
    obtain ⟨offered, rest', hbufs, hnone, hiov, hcarries⟩ := ih
    rw [hrest] at hbufs hiov hcarries
    dsimp only at hbufs hiov hcarries
    refine ⟨buf :: offered, rest', by rw [hbufs, List.cons_append], List.forall_mem_cons.2 ⟨hfd, hnone⟩,
      by rw [List.map_cons, entries_cons, ← hiov]; rfl, ?_⟩
    have hseg : buf.segment = ⟨[], iov⟩ := by rw [Ibuf.segment, hfd]; rfl
    rw [List.cons_append, List.map_cons, List.map_cons, hseg]
    -- the descriptor comes before the buffer, which has none
    refine Carries.trans ?_ ((Carries.refl [⟨[], iov⟩]).append hcarries)
    refine (carries_cut fd.toList [] iov _).trans ?_
    have hmerge := carries_merge [] fd.toList iov [] ((offered ++ rest').map Ibuf.segment)
    simpa using hmerge

theorem msgbufGather_map (i : ℕ) (bufs : List Ibuf) :
    (msgbufGather i bufs).2.2.map (fun buf => (buf.rpos, buf.wpos)) = bufs.map fun buf => (buf.rpos, buf.wpos) := by
  fun_induction msgbufGather i bufs with
  | case1 i => rfl
  | case2 buf bufs => rfl
  | case3 i buf bufs iov fd hfd => rfl
  | case4 i buf bufs iov hfd iovs fd rest hrest ih =>
    rw [hrest] at ih
    rw [List.map_cons, List.map_cons, ← ih]

/-- Taking bytes off the buffers that are offered puts them after what was taken before. -/
theorem msgbufDrain_spec {offered rest : List Ibuf} (hnone : ∀ buf ∈ offered, buf.fd = none)
    (hpos : ∀ buf ∈ offered ++ rest, buf.rpos < buf.wpos) (hn : n ≤ (entries (offered.map Ibuf.segment)).length)
    (hq : q = (offered ++ rest).length) (f : List ℕ) (b : List UInt8) :
    Carries
        (⟨f, b ++ (entries (offered.map Ibuf.segment)).take n⟩ ::
          (msgbufDrain (offered ++ rest) q n).bufs.map Ibuf.segment)
        (⟨f, b⟩ :: (offered ++ rest).map Ibuf.segment) ∧
      (∀ buf ∈ (msgbufDrain (offered ++ rest) q n).bufs, buf.rpos < buf.wpos) ∧
      (msgbufDrain (offered ++ rest) q n).queued = (msgbufDrain (offered ++ rest) q n).bufs.length := by
  induction offered generalizing n q b with
  | nil =>
    obtain rfl : n = 0 := Nat.le_zero.1 hn
    have hsame : msgbufDrain rest q 0 = ⟨rest, q⟩ := by cases rest <;> simp [msgbufDrain]
    rw [List.nil_append, hsame]
    exact ⟨by simpa using Carries.refl _, hpos, hq⟩
  | cons buf offered ih =>
    rw [List.forall_mem_cons] at hnone
    rw [List.cons_append, List.forall_mem_cons] at hpos
    have hlt := hpos.1
    have hseg : buf.segment = ⟨[], buf.buf.drop buf.rpos⟩ := by rw [Ibuf.segment, hnone.1]; rfl
    have hlen : (buf.buf.drop buf.rpos).length = buf.wpos - buf.rpos := List.length_drop
    rw [List.map_cons, entries_cons, hseg] at hn ⊢
    dsimp only at hn ⊢
    rw [List.length_append, hlen] at hn
    rw [List.cons_append, List.map_cons, hseg, msgbufDrain]
    split_ifs with hzero hall
    · subst hzero
      refine ⟨?_, List.forall_mem_cons.2 hpos, hq⟩
      rw [List.take_zero, List.append_nil, List.map_cons, hseg]
      exact .refl _
    · obtain ⟨hcarries, hrest⟩ := ih hnone.2 hpos.2 (n := n - (buf.wpos - buf.rpos)) (q := q - 1) (by omega)
        (by rw [hq]; rfl) (b ++ buf.buf.drop buf.rpos)
      refine ⟨?_, hrest⟩
      rw [List.take_append, List.take_of_length_le (by omega), hlen, ← List.append_assoc]
      refine hcarries.trans ?_
      simpa using carries_merge f [] b (buf.buf.drop buf.rpos) ((offered ++ rest).map Ibuf.segment)
    · refine ⟨?_, List.forall_mem_cons.2 ⟨?_, hpos.2⟩, hq⟩
      · have hrest : ({ buf with rpos := buf.rpos + n } : Ibuf).segment = ⟨[], (buf.buf.drop buf.rpos).drop n⟩ := by
          rw [Ibuf.segment, hnone.1, List.drop_drop]
          rfl
        rw [List.map_cons, hrest, List.take_append_of_le_length (by omega)]
        refine (carries_cut f _ ((buf.buf.drop buf.rpos).drop n) _).trans ?_
        rw [List.append_assoc, List.take_append_drop]
        simpa using carries_merge f [] b (buf.buf.drop buf.rpos) ((offered ++ rest).map Ibuf.segment)
      · exact Nat.lt_of_not_le hall

/-! ## What an event keeps -/

namespace ImsgLink.Carrying

theorem init (pid pid' : UInt32) : (ImsgLink.init pid pid').Carrying [] where
  carries := carries_nil_cons []
  proper := by simp
  unwritten := by simp [ImsgLink.init, imsgInit]
  queued := rfl

theorem compose (h : l.Carrying pending) (type peerid pid : UInt32) (fd : Option ℕ) (data : List UInt8) :
    (l.step (.compose type peerid pid fd data)).1.Carrying
      (pending ++ (ImsgEvent.composed l.sender.pid (.compose type peerid pid fd data)).toList) := by
  have hspec := imsgCompose_eq l.sender type peerid pid fd data
  rw [ImsgLink.step]
  cases hm : ImsgEvent.composed l.sender.pid (.compose type peerid pid fd data) with
  | none =>
    rw [hm] at hspec
    rw [hspec, Option.toList_none, List.append_nil]
    exact h
  | some m =>
    rw [hm] at hspec
    obtain ⟨buf, hpos, hseg, hproper, heq⟩ := hspec
    rw [heq]
    refine ⟨?_, ?_, ?_, ?_⟩
    · have hlast := h.carries.append (Carries.refl [m.segment])
      simpa [ibufEnqueue, hseg] using hlast
    · rw [Option.toList_some]
      exact List.forall_mem_append.2 ⟨h.proper, List.forall_mem_singleton.2 hproper⟩
    · exact List.forall_mem_append.2 ⟨h.unwritten, List.forall_mem_singleton.2 hpos⟩
    · simp [ibufEnqueue, h.queued]

theorem write (h : l.Carrying pending) (result : SendResult) : (l.step (.write result)).1.Carrying pending := by
  obtain ⟨offered, rest, hbufs, hnone, hiov, hcarries⟩ := msgbufGather_spec iovMax l.sender.w.bufs
  have hmap := msgbufGather_map iovMax l.sender.w.bufs
  rw [hbufs] at hmap
  have hpos : ∀ buf ∈ offered ++ rest, buf.rpos < buf.wpos := by
    intro buf hbuf
    have hmem := List.mem_map_of_mem (f := fun buf : Ibuf => (buf.rpos, buf.wpos)) hbuf
    rw [hmap, List.mem_map] at hmem
    obtain ⟨buf', hbuf', heq⟩ := hmem
    rw [← (Prod.mk.inj heq).1, ← (Prod.mk.inj heq).2]
    exact h.unwritten buf' hbuf'
  have hlen : l.sender.w.queued = (offered ++ rest).length := by
    rw [h.queued, ← List.length_map, ← hmap, List.length_map]
  have hsame : ({ l with sender := { l.sender with w := l.sender.w }, channel := l.channel ++ [] } :
      ImsgLink).Carrying pending := by
    rw [List.append_nil]
    exact h
  rw [ImsgLink.step, msgbufWrite]
  dsimp only
  cases result with
  | again => exact hsame
  | failed => exact hsame
  | sent n =>
    dsimp only
    split_ifs with hzero
    · exact hsame
    rw [hbufs, hiov]
    rw [hiov] at hzero
    obtain ⟨hdrain, hleft, hqueued⟩ := msgbufDrain_spec hnone hpos (Nat.min_le_right n _) hlen
      (msgbufGather iovMax l.sender.w.bufs).2.1.toList []
    refine ⟨?_, h.proper, hleft, hqueued⟩
    have hchannel := (Carries.refl (⟨l.receiver.fds, l.receiver.r⟩ :: l.channel)).append (hdrain.trans hcarries)
    rw [List.nil_append] at hchannel
    simpa only [List.append_assoc, List.cons_append, List.nil_append] using hchannel.trans h.carries

theorem read (h : l.Carrying pending) (result : RecvResult) : (l.step (.read result)).1.Carrying pending := by
  rw [ImsgLink.step]
  cases result with
  | again => exact h
  | failed => exact h
  | received n =>
    have hreceive := carries_receive (min n (ibufReadSize - l.receiver.r.length)) l.channel l.receiver.fds l.receiver.r
    exact ⟨(hreceive.append (.refl _)).trans h.carries, h.proper, h.unwritten, h.queued⟩

/-- What has been read starts with the first message that is not taken, which is then taken, or is a part of it. -/
theorem imsgGet_cases (h : l.Carrying pending) :
    (imsgGet l.receiver = (.nothing, l.receiver) ∧ l.receiver.r.length < maxImsgsize ∧
        ∀ m ∈ pending.head?, l.receiver.r.length < m.segment.entries.length) ∨
      ∃ m rest, pending = m :: rest ∧ (imsgGet l.receiver).1 = .message m ∧
        ({ l with receiver := (imsgGet l.receiver).2 } : ImsgLink).Carrying rest := by
  have hentries := h.carries.entries
  rw [entries_cons] at hentries
  dsimp only at hentries
  cases hpending : pending with
  | nil =>
    rw [hpending] at hentries
    have hr : l.receiver.r = [] := (List.append_eq_nil_iff.1 hentries).1
    refine .inl ⟨?_, ?_, by simp⟩
    · rw [imsgGet, hr]
      rfl
    · rw [hr]
      decide
  | cons m rest =>
    rw [hpending, List.map_cons, entries_cons] at hentries
    obtain ⟨hm, hproper⟩ := List.forall_mem_cons.1 (hpending ▸ h.proper)
    have hsize : m.segment.entries.length = imsgHeaderSize + m.data.length := by
      rw [Imsg.segment, List.length_append, ImsgHdr.length_bytes]
    have hstart : ∀ s, s <+: m.segment.entries → s.length ≤ l.receiver.r.length → s <+: l.receiver.r :=
      fun s hs hle => List.prefix_of_prefix_length_le (hs.trans ⟨_, hentries.symm⟩) ⟨_, rfl⟩ hle
    by_cases hheader : l.receiver.r.length < imsgHeaderSize
    · refine .inl ⟨?_, Nat.lt_trans hheader (by decide), ?_⟩
      · rw [imsgGet]
        dsimp only
        rw [if_pos hheader]
      · rintro _ ⟨⟩
        omega
    have hhdr : ImsgHdr.read l.receiver.r = m.hdr := by
      obtain ⟨r, hr⟩ := hstart m.hdr.bytes ⟨m.data, rfl⟩ (by rw [ImsgHdr.length_bytes]; omega)
      rw [← hr, ImsgHdr.read_bytes]
    have hshort := hm.short
    have hget := imsgGet_of_header (Nat.not_lt.1 hheader) (by rw [hhdr, hm.len]; omega)
    rw [hhdr] at hget
    dsimp only at hget
    by_cases hpart : l.receiver.r.length < m.hdr.len.toNat
    · refine .inl ⟨by rw [hget, if_pos hpart], ?_, ?_⟩
      · rw [hm.len] at hpart
        omega
      · rintro _ ⟨⟩
        rwa [hsize, ← hm.len]
    -- the message is there, and its descriptor has come with it
    refine .inr ⟨m, rest, rfl, ?_⟩
    obtain ⟨b, hb⟩ := hstart _ List.prefix_rfl (by rw [hsize, ← hm.len]; omega)
    have hcarries := h.carries
    rw [hpending, ← hb] at hcarries
    obtain ⟨f, hf, hrest⟩ := hcarries.take (g := m.fd.toList) (c := m.segment.entries) (m := rest.map Imsg.segment)
      (List.ne_nil_of_length_pos (by rw [hsize]; simp only [imsgHeaderSize]; omega))
    have hdata : (l.receiver.r.drop imsgHeaderSize).take (m.hdr.len.toNat - imsgHeaderSize) = m.data := by
      rw [← hb, Imsg.segment, hm.len, List.append_assoc, List.drop_left' (ImsgHdr.length_bytes _),
        List.take_left' (by omega)]
    have hr : (if m.hdr.len.toNat < l.receiver.r.length then l.receiver.r.drop m.hdr.len.toNat else []) = b := by
      have hlen : l.receiver.r.length = m.hdr.len.toNat + b.length := by
        rw [← hb, List.length_append, hsize, hm.len]
      split_ifs with hmore
      · rw [← hb, List.drop_left' (by rw [hsize, hm.len])]
      · exact (List.eq_nil_of_length_eq_zero (by omega)).symm
    rw [hget, if_neg hpart]
    cases hfd : m.fd with
    | none =>
      rw [if_neg (fun hflag => hm.flags.1 hflag hfd)]
      dsimp only
      rw [hdata, hr]
      rw [hfd, Option.toList_none, List.nil_append] at hf
      subst hf
      refine ⟨?_, hrest, hproper, h.unwritten, h.queued⟩
      rw [← hfd]
    | some fd =>
      rw [if_pos (hm.flags.2 (by rw [hfd]; exact Option.some_ne_none fd)), imsgGetFd, hf, hfd]
      dsimp only [Option.toList_some, List.singleton_append, List.head?_cons, List.tail_cons]
      rw [hdata, hr]
      refine ⟨?_, hrest, hproper, h.unwritten, h.queued⟩
      rw [← hfd]

/-- An event keeps the messages that are on their way, after those that it composes and but for the one that it gets. -/
theorem step (h : l.Carrying pending) (event : ImsgEvent) :
    ∃ pending', (l.step event).1.Carrying pending' ∧
      pending ++ (event.composed l.sender.pid).toList = (l.step event).2.filterMap ImsgGet.message? ++ pending' ∧
      ImsgGet.error ∉ (l.step event).2 ∧ (l.step event).1.sender.pid = l.sender.pid := by
  cases event with
  | compose type peerid pid fd data =>
    refine ⟨_, h.compose type peerid pid fd data, rfl, List.not_mem_nil, ?_⟩
    have hspec := imsgCompose_eq l.sender type peerid pid fd data
    rw [ImsgLink.step]
    dsimp only
    cases hm : ImsgEvent.composed l.sender.pid (.compose type peerid pid fd data) with
    | none =>
      rw [hm] at hspec
      rw [hspec]
    | some m =>
      rw [hm] at hspec
      obtain ⟨buf, -, -, -, heq⟩ := hspec
      rw [heq]
  | write result => exact ⟨pending, h.write result, List.append_nil _, List.not_mem_nil, rfl⟩
  | read result => exact ⟨pending, h.read result, List.append_nil _, List.not_mem_nil, rfl⟩
  | get =>
    have hgot : (l.step .get).2 = [(imsgGet l.receiver).1] := rfl
    have hstate : (l.step .get).1 = { l with receiver := (imsgGet l.receiver).2 } := rfl
    rw [hgot, hstate]
    rcases h.imsgGet_cases with ⟨hget, -, -⟩ | ⟨m, rest, rfl, hget, hrest⟩
    · rw [hget]
      exact ⟨pending, h, List.append_nil _, by simp, rfl⟩
    · rw [hget]
      exact ⟨rest, hrest, List.append_nil _, by simp, rfl⟩

theorem run (h : l.Carrying pending) (events : List ImsgEvent) :
    ∃ pending', (l.run events).1.Carrying pending' ∧
      pending ++ events.filterMap (ImsgEvent.composed l.sender.pid) =
        (l.run events).2.filterMap ImsgGet.message? ++ pending' ∧
      ImsgGet.error ∉ (l.run events).2 := by
  induction events generalizing l pending with
  | nil => exact ⟨pending, h, List.append_nil _, List.not_mem_nil⟩
  | cons event events ih =>
    obtain ⟨pending₁, hcarrying₁, hsplit₁, herror₁, hpid⟩ := h.step event
    obtain ⟨pending₂, hcarrying₂, hsplit₂, herror₂⟩ := ih hcarrying₁
    refine ⟨pending₂, hcarrying₂, ?_, ?_⟩
    · have hcomposed : (event :: events).filterMap (ImsgEvent.composed l.sender.pid) =
          (event.composed l.sender.pid).toList ++ events.filterMap (ImsgEvent.composed l.sender.pid) := by
        rw [List.filterMap_cons]
        cases event.composed l.sender.pid <;> rfl
      rw [hpid] at hsplit₂
      rw [hcomposed, ← List.append_assoc, hsplit₁, List.append_assoc, hsplit₂, ← List.append_assoc,
        ← List.filterMap_append]
      rfl
    · exact List.not_mem_append herror₁ herror₂

end ImsgLink.Carrying

/-- Whatever the ends of a connection do, the messages got are the first ones composed, and no error is met. When
    nothing is got there is room to read; if nothing is queued or in the socket then, all messages have been got. -/
theorem imsgRun_delivers (pid pid' : UInt32) (events : List ImsgEvent) :
    ∃ pending, events.filterMap (ImsgEvent.composed pid) =
        ((ImsgLink.init pid pid').run events).2.filterMap ImsgGet.message? ++ pending ∧
      ImsgGet.error ∉ ((ImsgLink.init pid pid').run events).2 ∧
      ∀ l, l = ((ImsgLink.init pid pid').run events).1 →
        (imsgGet l.receiver).1 ≠ .error ∧
          ((imsgGet l.receiver).1 = .nothing → l.receiver.r.length < ibufReadSize ∧
            (l.sender.w.bufs = [] → l.channel = [] → pending = [])) := by
  obtain ⟨pending, hcarrying, hsplit, herror⟩ := (ImsgLink.Carrying.init pid pid').run events
  refine ⟨pending, hsplit, herror, ?_⟩
  rintro l rfl
  rcases hcarrying.imsgGet_cases with ⟨hget, hroom, hpart⟩ | ⟨m, rest, rfl, hgot, hrest⟩
  · refine ⟨by rw [hget]; exact nofun, fun _ => ⟨Nat.lt_trans hroom (by decide), fun hbufs hchannel => ?_⟩⟩
    cases hpending : pending with
    | nil => rfl
    | cons m rest =>
      -- all bytes have been read, so the first message is complete
      have hlt := hpart m (by rw [hpending]; rfl)
      have hentries := hcarrying.carries.entries
      rw [hpending, hbufs, hchannel] at hentries
      have hlen := congrArg List.length hentries
      simp only [List.map_cons, List.map_nil, List.append_nil, entries_cons, entries_nil, List.length_append] at hlen
      omega
  · rw [hgot]
    exact ⟨nofun, nofun⟩

end Tmux
