import ChatServer.Common.Types

/-!
# Packet framing

`PacketCodec` cuts a byte stream at newlines. The codec keeps the bytes that
are not yet terminated; `feed` appends a received chunk, returns the packets
it completes and fails when a line or the rest grows past `kMaxPacketSize`.

`segments` is the specification: the newline-terminated lines of a stream and
its unterminated remainder. `feed_ok` relates one successful `feed` to it
and `feed_extends` a whole sequence of them, whatever the cutting;
`feed_ok_iff` says when a `feed` succeeds. `framing_of_cutting` puts them
together for every cutting of a stream (`feedAll`).
-/

namespace ChatServer.Codec

/-- `PacketCodec::kMaxPacketSize`. -/
def kMaxPacketSize : Nat := 64 * 1024

def newline : UInt8 := 10

def carriageReturn : UInt8 := 13

/-- `chat::PacketCodec`. -/
structure PacketCodec where
  buffer : Bytes := []
  deriving DecidableEq, Repr

/-- `buffer_.find('\n')` with the two parts it separates: `substr(0, pos)` and
what `erase(0, pos + 1)` leaves. -/
def splitNewline : Bytes → Option (Bytes × Bytes)
  | [] => none
  | b :: bs =>
    if b = newline then some ([], bs)
    else (splitNewline bs).map fun r => (b :: r.1, r.2)

/-- Drop one trailing carriage return. -/
def stripCr (packet : Bytes) : Bytes :=
  if packet.getLast? = some carriageReturn then packet.dropLast else packet

/-- What `PacketCodec::feed` returns: the Boolean, the codec after the call and
the packets written to the output vector. -/
structure FeedResult where
  ok : Bool
  codec : PacketCodec
  packets : List Bytes

/-- The `while` loop of `feed`. Every round removes a newline, so the buffer's
length bounds the number of rounds. -/
def drain : Nat → Bytes → List Bytes → FeedResult
  | 0, buffer, packets => ⟨true, ⟨buffer⟩, packets⟩
  | fuel + 1, buffer, packets =>
    match splitNewline buffer with
    | some (line, rest) =>
      if line.length > kMaxPacketSize then ⟨false, ⟨[]⟩, []⟩
      else drain fuel rest (packets ++ [stripCr line])
    | none =>
      if buffer.length > kMaxPacketSize then ⟨false, ⟨[]⟩, []⟩
      else ⟨true, ⟨buffer⟩, packets⟩

/-- `PacketCodec::feed`. -/
def PacketCodec.feed (codec : PacketCodec) (chunk : Bytes) : FeedResult :=
  let buffer := codec.buffer ++ chunk
  drain (buffer.length + 1) buffer []

/-- `PacketCodec::encode`. -/
def encode (payload : Bytes) : Bytes := payload ++ [newline]

/-! ## The specification -/

/-- The newline-terminated segments of a stream, and the unterminated rest. -/
def segments : Bytes → List Bytes × Bytes
  | [] => ([], [])
  | b :: bs =>
    if b = newline then ([] :: (segments bs).1, (segments bs).2)
    else
      match segments bs with
      | ([], rest) => ([], b :: rest)
      | (l :: ls, rest) => ((b :: l) :: ls, rest)

/-- The packets of a stream: its segments, each less one trailing `\r`. -/
def packetsOf (stream : Bytes) : List Bytes := (segments stream).1.map stripCr

variable {buffer chunk payload : Bytes} {codec : PacketCodec} {chunks : List Bytes}

theorem segments_of_split {line rest : Bytes} (h : splitNewline buffer = some (line, rest)) :
    segments buffer = (line :: (segments rest).1, (segments rest).2) := by
  induction buffer generalizing line with
  | nil => simp [splitNewline] at h
  | cons b bs ih =>
    unfold splitNewline at h
    by_cases hb : b = newline
    · rw [if_pos hb] at h
      cases h
      simp [segments, hb]
    · rw [if_neg hb] at h
      cases hs : splitNewline bs with
      | none => simp [hs] at h
      | some r =>
        obtain ⟨l, r⟩ := r
        simp only [hs, Option.map_some, Option.some.injEq, Prod.mk.injEq] at h
        obtain ⟨rfl, rfl⟩ := h
        simp [segments, hb, ih hs]

theorem segments_of_no_split (h : splitNewline buffer = none) : segments buffer = ([], buffer) := by
  induction buffer with
  | nil => rfl
  | cons b bs ih =>
    unfold splitNewline at h
    by_cases hb : b = newline
    · simp [if_pos hb] at h
    · rw [if_neg hb, Option.map_eq_none_iff] at h
      simp [segments, hb, ih h]

theorem length_of_split {line rest : Bytes} (h : splitNewline buffer = some (line, rest)) :
    buffer.length = line.length + rest.length + 1 := by
  induction buffer generalizing line with
  | nil => simp [splitNewline] at h
  | cons b bs ih =>
    unfold splitNewline at h
    by_cases hb : b = newline
    · rw [if_pos hb] at h
      cases h
      simp
    · rw [if_neg hb] at h
      cases hs : splitNewline bs with
      | none => simp [hs] at h
      | some r =>
        obtain ⟨l, r⟩ := r
        simp only [hs, Option.map_some, Option.some.injEq, Prod.mk.injEq] at h
        obtain ⟨rfl, rfl⟩ := h
        have := ih hs
        simp only [List.length_cons]
        omega

/-- Segmenting a stream piecewise: the rest of the first piece is put in front
of the second. -/
theorem segments_append (a b : Bytes) :
    segments (a ++ b) =
      ((segments a).1 ++ (segments ((segments a).2 ++ b)).1,
        (segments ((segments a).2 ++ b)).2) := by
  induction a with
  | nil => simp [segments]
  | cons x xs ih =>
    by_cases hx : x = newline
    · simp [segments, hx, ih]
    · -- the segment being built either closes inside `xs` or runs on into `b`
      cases hs : segments xs with
      | mk ls rest =>
        rw [hs] at ih
        cases ls with
        | nil =>
          simp only [List.nil_append] at ih
          simp only [List.cons_append, segments, hx, if_false, ih, hs, List.nil_append]
        | cons l ls =>
          simp only [List.cons_append] at ih
          simp only [List.cons_append, segments, hx, if_false, ih, hs]

theorem packetsOf_initial (a b : Bytes) : packetsOf a <+: packetsOf (a ++ b) := by
  unfold packetsOf
  rw [segments_append, List.map_append]
  exact List.prefix_append _ _

/-- The loop, given fuel for every newline, returns the segments of the buffer
and keeps the remainder. -/
theorem drain_ok {fuel : Nat} {packets : List Bytes} (hfuel : buffer.length < fuel)
    (hok : (drain fuel buffer packets).ok = true) :
    (drain fuel buffer packets).packets = packets ++ packetsOf buffer ∧
      (drain fuel buffer packets).codec.buffer = (segments buffer).2 := by
  induction fuel generalizing buffer packets with
  | zero => omega
  | succ fuel ih =>
    unfold drain at hok ⊢
    cases hs : splitNewline buffer with
    | none =>
      simp only [hs] at hok ⊢
      split at hok
      · simp at hok
      · rename_i hle
        simp [if_neg hle, packetsOf, segments_of_no_split hs]
    | some r =>
      obtain ⟨line, rest⟩ := r
      simp only [hs] at hok ⊢
      split at hok
      · simp at hok
      · rename_i hle
        -- the rest is shorter by the line and its newline
        have hlen := length_of_split hs
        obtain ⟨hp, hr⟩ := ih (by omega) hok
        rw [if_neg hle, hp, hr]
        simp [packetsOf, segments_of_split hs]

/-- A successful `feed` returns the packets completed by the chunk. -/
theorem feed_ok (hok : (codec.feed chunk).ok = true) :
    (codec.feed chunk).packets = packetsOf (codec.buffer ++ chunk) ∧
      (codec.feed chunk).codec.buffer = (segments (codec.buffer ++ chunk)).2 := by
  have h := drain_ok (Nat.lt_succ_self (codec.buffer ++ chunk).length) hok
  simpa [PacketCodec.feed] using h

/-- One more chunk of a stream: if the codec holds the remainder of what came
before, a successful `feed` returns exactly the packets by which the packet
list of the stream grows. -/
theorem feed_extends {stream : Bytes} (hbuf : codec.buffer = (segments stream).2)
    (hok : (codec.feed chunk).ok = true) :
    packetsOf (stream ++ chunk) = packetsOf stream ++ (codec.feed chunk).packets ∧
      (codec.feed chunk).codec.buffer = (segments (stream ++ chunk)).2 := by
  obtain ⟨hp, hb⟩ := feed_ok hok
  rw [hbuf] at hp hb
  rw [hp, hb]
  constructor
  · simp [packetsOf, segments_append stream chunk]
  · rw [segments_append stream chunk]

/-! ## When feeding succeeds -/

/-- The segments of a stream and its remainder are within the limit. -/
structure Within (stream : Bytes) : Prop where
  lines : ∀ line ∈ (segments stream).1, line.length ≤ kMaxPacketSize
  rest : (segments stream).2.length ≤ kMaxPacketSize

theorem drain_ok_iff {fuel : Nat} {packets : List Bytes} (hfuel : buffer.length < fuel) :
    (drain fuel buffer packets).ok = true ↔ Within buffer := by
  induction fuel generalizing buffer packets with
  | zero => omega
  | succ fuel ih =>
    unfold drain
    cases hs : splitNewline buffer with
    | none =>
      -- no newline is left: the limit is that of the remainder
      have hsegments := segments_of_no_split hs
      have hrest : (segments buffer).2 = buffer := by rw [hsegments]
      simp only
      split
      next hlong =>
        refine ⟨fun h => absurd h Bool.false_ne_true, fun h => ?_⟩
        have hle := h.rest
        rw [hrest] at hle
        omega
      next hshort =>
        refine ⟨fun _ => ⟨fun line hline => ?_, ?_⟩, fun _ => rfl⟩
        · rw [hsegments] at hline
          exact absurd hline List.not_mem_nil
        · rw [hrest]
          omega
    | some r =>
      obtain ⟨line, rest⟩ := r
      -- the first line, then the loop on the rest
      have hsegments := segments_of_split hs
      have hlen := length_of_split hs
      simp only
      split
      next hlong =>
        refine ⟨fun h => absurd h Bool.false_ne_true, fun h => ?_⟩
        have hle := h.lines line (by rw [hsegments]; exact List.mem_cons_self)
        omega
      next hshort =>
        rw [ih (by omega)]
        constructor
        · refine fun h => ⟨fun l hl => ?_, by rw [hsegments]; exact h.rest⟩
          rw [hsegments] at hl
          rcases List.mem_cons.mp hl with rfl | hl
          · omega
          · exact h.lines l hl
        · intro h
          have hlines := h.lines
          have hrest := h.rest
          rw [hsegments] at hlines hrest
          exact ⟨fun l hl => hlines l (List.mem_cons_of_mem _ hl), hrest⟩

theorem feed_ok_iff : (codec.feed chunk).ok = true ↔ Within (codec.buffer ++ chunk) :=
  drain_ok_iff (Nat.lt_succ_self _)

theorem splitNewline_remainder (a : Bytes) : splitNewline (segments a).2 = none := by
  induction a with
  | nil => rfl
  | cons b bs ih =>
    by_cases hb : b = newline
    · simpa [segments, hb] using ih
    · cases hs : segments bs with
      | mk lines rest =>
        rw [hs] at ih
        cases lines with
        | nil => simpa [segments, hb, hs, splitNewline] using ih
        | cons line lines => simpa [segments, hb, hs] using ih

/-- An open segment goes on to the next newline. -/
theorem splitNewline_append {a b : Bytes} (h : splitNewline a = none) :
    splitNewline (a ++ b) = (splitNewline b).map fun r => (a ++ r.1, r.2) := by
  induction a with
  | nil => simp
  | cons x xs ih =>
    unfold splitNewline at h
    by_cases hx : x = newline
    · simp [if_pos hx] at h
    · rw [if_neg hx, Option.map_eq_none_iff] at h
      show (if x = newline then _ else (splitNewline (xs ++ b)).map _) = _
      rw [if_neg hx, ih h, Option.map_map]
      rfl

/-- The remainder of a beginning of a stream is a beginning of one of its segments or
of its remainder. -/
theorem Within.of_append {a b : Bytes} (h : Within (a ++ b)) :
    (segments a).2.length ≤ kMaxPacketSize := by
  obtain ⟨hlines, hrest⟩ := h
  rw [segments_append] at hlines hrest
  have hsplit := splitNewline_append (b := b) (splitNewline_remainder a)
  -- `b` closes the segment that `a` left open, or leaves it open too
  cases hb : splitNewline b with
  | none =>
    rw [hb] at hsplit
    rw [segments_of_no_split hsplit, List.length_append] at hrest
    omega
  | some r =>
    rw [hb] at hsplit
    rw [segments_of_split hsplit] at hlines
    have hline := hlines _ (List.mem_append_right _ List.mem_cons_self)
    rw [List.length_append] at hline
    omega

/-! ## Every cutting of a stream -/

/-- Feed chunks one after another: whether every call succeeded, the codec at the end
and all packets returned. -/
def PacketCodec.feedAll (codec : PacketCodec) : List Bytes → FeedResult
  | [] => ⟨true, codec, []⟩
  | chunk :: rest =>
    let first := codec.feed chunk
    let later := first.codec.feedAll rest
    ⟨first.ok && later.ok, later.codec, first.packets ++ later.packets⟩

/-- Feeding the rest of a stream of which `before` has been fed. -/
theorem feedAll_ok_iff {before : Bytes} (hbuf : codec.buffer = (segments before).2)
    (hlines : ∀ line ∈ (segments before).1, line.length ≤ kMaxPacketSize) :
    (codec.feedAll chunks).ok = true ↔
      (∀ line ∈ (segments (before ++ chunks.flatten)).1, line.length ≤ kMaxPacketSize) ∧
        ∀ fed rest, chunks = fed ++ rest → fed ≠ [] →
          (segments (before ++ fed.flatten)).2.length ≤ kMaxPacketSize := by
  induction chunks generalizing codec before with
  | nil =>
    refine ⟨fun _ => ⟨by simpa using hlines, ?_⟩, fun _ => rfl⟩
    intro fed rest hfed hne
    exact absurd (List.append_eq_nil_iff.mp hfed.symm).1 hne
  | cons chunk chunks ih =>
    show ((codec.feed chunk).ok && ((codec.feed chunk).codec.feedAll chunks).ok) = true ↔ _
    rw [Bool.and_eq_true]
    have hsegments := segments_append before chunk
    rw [← hbuf] at hsegments
    -- the chunk is fed to what is left of the stream before it
    have hfeed : (codec.feed chunk).ok = true ↔
        (∀ line ∈ (segments (before ++ chunk)).1, line.length ≤ kMaxPacketSize) ∧
          (segments (before ++ chunk)).2.length ≤ kMaxPacketSize := by
      rw [feed_ok_iff, hsegments]
      constructor
      · intro h
        refine ⟨fun line hline => ?_, h.rest⟩
        rcases List.mem_append.mp hline with hline | hline
        · exact hlines line hline
        · exact h.lines line hline
      · exact fun h => ⟨fun line hline => h.1 line (List.mem_append_right _ hline), h.2⟩
    have hflat : before ++ (chunk :: chunks).flatten = before ++ chunk ++ chunks.flatten := by
      rw [List.flatten_cons, List.append_assoc]
    constructor
    · rintro ⟨hfirst, hlater⟩
      obtain ⟨hnow, hrest⟩ := hfeed.mp hfirst
      obtain ⟨hall, hends⟩ := (ih (feed_extends hbuf hfirst).2 hnow).mp hlater
      refine ⟨by rwa [hflat], fun fed rest hfed hne => ?_⟩
      -- after the first chunk alone, or after later ones
      cases fed with
      | nil => exact absurd rfl hne
      | cons c fed =>
        obtain ⟨rfl, hmore⟩ := List.cons.inj hfed
        rw [List.flatten_cons, ← List.append_assoc]
        by_cases hlast : fed = []
        · rw [hlast]
          simpa using hrest
        · exact hends fed rest hmore hlast
    · rintro ⟨hall, hends⟩
      rw [hflat, segments_append] at hall
      have hnow : ∀ line ∈ (segments (before ++ chunk)).1, line.length ≤ kMaxPacketSize :=
        fun line hline => hall line (List.mem_append_left _ hline)
      have hrest := hends [chunk] chunks rfl (List.cons_ne_nil _ _)
      rw [List.flatten_singleton] at hrest
      have hfirst := hfeed.mpr ⟨hnow, hrest⟩
      refine ⟨hfirst, (ih (feed_extends hbuf hfirst).2 hnow).mpr ⟨?_, ?_⟩⟩
      · rwa [segments_append (before ++ chunk)]
      · intro fed rest hfed _
        have hend := hends (chunk :: fed) rest (congrArg (chunk :: ·) hfed)
          (List.cons_ne_nil _ _)
        rwa [List.flatten_cons, ← List.append_assoc] at hend

theorem feedAll_extends {before : Bytes} (hbuf : codec.buffer = (segments before).2)
    (hok : (codec.feedAll chunks).ok = true) :
    packetsOf (before ++ chunks.flatten) = packetsOf before ++ (codec.feedAll chunks).packets ∧
      (codec.feedAll chunks).codec.buffer = (segments (before ++ chunks.flatten)).2 := by
  induction chunks generalizing codec before with
  | nil =>
    rw [List.flatten_nil, List.append_nil]
    exact ⟨(List.append_nil _).symm, hbuf⟩
  | cons chunk chunks ih =>
    obtain ⟨hfirst, hlater⟩ := (Bool.and_eq_true _ _).mp hok
    obtain ⟨hpackets, hbuffer⟩ := feed_extends hbuf hfirst
    obtain ⟨hall, hend⟩ := ih hbuffer hlater
    rw [List.flatten_cons, ← List.append_assoc]
    refine ⟨?_, hend⟩
    rw [hall, hpackets, List.append_assoc]
    rfl

/-- What a fresh codec returns and keeps. -/
theorem packets_of_feedAll (hok : (({} : PacketCodec).feedAll chunks).ok = true) :
    (({} : PacketCodec).feedAll chunks).packets = packetsOf chunks.flatten ∧
      (({} : PacketCodec).feedAll chunks).codec.buffer = (segments chunks.flatten).2 := by
  obtain ⟨hall, hend⟩ := @feedAll_extends {} chunks [] rfl hok
  exact ⟨hall.symm, hend⟩

theorem feedAll_fresh_iff :
    (({} : PacketCodec).feedAll chunks).ok = true ↔
      (∀ line ∈ (segments chunks.flatten).1, line.length ≤ kMaxPacketSize) ∧
        ∀ fed rest, chunks = fed ++ rest → fed ≠ [] →
          (segments fed.flatten).2.length ≤ kMaxPacketSize :=
  @feedAll_ok_iff {} chunks [] rfl (by simp [segments])

theorem feedAll_of_within (h : Within chunks.flatten) :
    (({} : PacketCodec).feedAll chunks).ok = true := by
  refine feedAll_fresh_iff.mpr ⟨h.lines, fun fed rest hfed _ => ?_⟩
  rw [hfed, List.flatten_append] at h
  exact h.of_append

/-- A stream fed to a fresh codec, in whatever chunks: the calls all succeed exactly
if the segments, and the remainder at the end of every chunk, are within the limit;
then the packets are the segments and the buffer holds the remainder. So the packets
do not depend on the cutting, and a stream within the limit can be cut anywhere. -/
theorem framing_of_cutting (chunks : List Bytes) :
    ((({} : PacketCodec).feedAll chunks).ok = true ↔
        (∀ line ∈ (segments chunks.flatten).1, line.length ≤ kMaxPacketSize) ∧
          ∀ fed rest, chunks = fed ++ rest → fed ≠ [] →
            (segments fed.flatten).2.length ≤ kMaxPacketSize) ∧
      ((({} : PacketCodec).feedAll chunks).ok = true →
        (({} : PacketCodec).feedAll chunks).packets = (segments chunks.flatten).1.map stripCr ∧
          (({} : PacketCodec).feedAll chunks).codec.buffer = (segments chunks.flatten).2) ∧
      (∀ chunks', chunks'.flatten = chunks.flatten →
        (({} : PacketCodec).feedAll chunks).ok = true →
        (({} : PacketCodec).feedAll chunks').ok = true →
        (({} : PacketCodec).feedAll chunks').packets =
          (({} : PacketCodec).feedAll chunks).packets) ∧
      ((∀ line ∈ (segments chunks.flatten).1, line.length ≤ kMaxPacketSize) →
        (segments chunks.flatten).2.length ≤ kMaxPacketSize →
        (({} : PacketCodec).feedAll chunks).ok = true) := by
  refine ⟨feedAll_fresh_iff, packets_of_feedAll, fun chunks' hsame hfed hfed' => ?_,
    fun hlines hrest => feedAll_of_within ⟨hlines, hrest⟩⟩
  rw [(packets_of_feedAll hfed').1, (packets_of_feedAll hfed).1, hsame]

/-! ## Encoded payloads -/

/-- A payload that comes out of the framing as it went in. -/
structure Frameable (payload : Bytes) : Prop where
  newline : newline ∉ payload
  carriageReturn : payload.getLast? ≠ some carriageReturn
  length : payload.length ≤ kMaxPacketSize

theorem splitNewline_of_notMem (h : newline ∉ payload) : splitNewline payload = none := by
  induction payload with
  | nil => rfl
  | cons b bs ih =>
    have hb : b ≠ newline := fun hb => h (hb ▸ List.mem_cons_self)
    unfold splitNewline
    rw [if_neg hb, ih fun hmem => h (List.mem_cons_of_mem _ hmem)]
    rfl

/-- The segments of encoded payloads are the payloads. -/
theorem segments_encode {payloads : List Bytes} (h : ∀ p ∈ payloads, newline ∉ p) :
    segments (payloads.map encode).flatten = (payloads, []) := by
  induction payloads with
  | nil => rfl
  | cons p ps ih =>
    have hp := splitNewline_of_notMem (h p List.mem_cons_self)
    have hsplit : splitNewline (p ++ (newline :: (ps.map encode).flatten)) =
        some (p, (ps.map encode).flatten) := by
      rw [splitNewline_append hp]
      simp [splitNewline]
    rw [List.map_cons, List.flatten_cons, encode, List.append_assoc]
    show segments (p ++ (newline :: (ps.map encode).flatten)) = _
    rw [segments_of_split hsplit, ih fun q hq => h q (List.mem_cons_of_mem _ hq)]

/-- A peer takes an encoded payload of one line if it is not too long. -/
theorem feed_encode_iff (h : newline ∉ payload) :
    (({} : PacketCodec).feed (encode payload)).ok = true ↔ payload.length ≤ kMaxPacketSize := by
  have hsegments : segments (encode payload) = ([payload], []) := by
    have := segments_encode (List.forall_mem_singleton.mpr h)
    rwa [List.map_singleton, List.flatten_singleton] at this
  rw [feed_ok_iff]
  constructor
  · intro hwithin
    refine hwithin.lines payload ?_
    show payload ∈ (segments (encode payload)).1
    rw [hsegments]
    exact List.mem_singleton_self payload
  · intro hle
    constructor
    · intro line hline
      have hline : line ∈ (segments (encode payload)).1 := hline
      rw [hsegments, List.mem_singleton] at hline
      exact hline ▸ hle
    · show (segments (encode payload)).2.length ≤ _
      rw [hsegments]
      exact Nat.zero_le _

theorem stripCr_frameable (h : Frameable payload) : stripCr payload = payload :=
  if_neg h.carriageReturn

/-- A peer that has received a beginning of encoded payloads, in whatever chunks, has
the first of the payloads, and all of them if it has received everything. -/
theorem peer_decodes {payloads : List Bytes} (hclean : ∀ p ∈ payloads, Frameable p)
    (hfed : chunks.flatten <+: (payloads.map encode).flatten) :
    (({} : PacketCodec).feedAll chunks).ok = true ∧
      (({} : PacketCodec).feedAll chunks).packets <+: payloads ∧
      (chunks.flatten = (payloads.map encode).flatten →
        (({} : PacketCodec).feedAll chunks).packets = payloads) := by
  obtain ⟨rest, hrest⟩ := hfed
  have hsegments := segments_encode fun p hp => (hclean p hp).newline
  have hstrip : payloads.map stripCr = payloads := by
    rw [List.map_congr_left fun p hp => stripCr_frameable (hclean p hp), List.map_id']
  -- the segments received so far are the first of the payloads
  have hlines : (segments chunks.flatten).1 <+: payloads := by
    have happend := congrArg Prod.fst (segments_append chunks.flatten rest)
    rw [hrest, hsegments] at happend
    exact ⟨_, happend.symm⟩
  have hwithin : Within (chunks.flatten ++ rest) := by
    rw [hrest]
    refine ⟨fun line hline => ?_, ?_⟩
    · rw [hsegments] at hline
      exact (hclean line hline).length
    · rw [hsegments]
      exact Nat.zero_le _
  have hok := feedAll_of_within
    ⟨fun line hline => (hclean line (hlines.subset hline)).length, hwithin.of_append⟩
  obtain ⟨hpackets, -⟩ := packets_of_feedAll hok
  refine ⟨hok, ?_, fun hall => ?_⟩
  · rw [hpackets, packetsOf, ← hstrip]
    exact hlines.map stripCr
  · rw [hpackets, packetsOf, hall, hsegments]
    exact hstrip

/-- A payload of one line arrives as it is exactly if it is not too long, in whatever
chunks it comes. -/
theorem feedAll_encode_iff (hline : newline ∉ payload)
    (hend : payload.getLast? ≠ some carriageReturn) (hfed : chunks.flatten = encode payload) :
    (({} : PacketCodec).feedAll chunks).ok = true ∧
        (({} : PacketCodec).feedAll chunks).packets = [payload] ↔
      payload.length ≤ kMaxPacketSize := by
  have hencode : chunks.flatten = ([payload].map encode).flatten := by
    rw [hfed, List.map_singleton, List.flatten_singleton]
  constructor
  · rintro ⟨hok, -⟩
    refine (feedAll_fresh_iff.mp hok).1 payload ?_
    rw [hencode, segments_encode (List.forall_mem_singleton.mpr hline)]
    exact List.mem_singleton_self payload
  · intro hlength
    have hclean : ∀ p ∈ [payload], Frameable p :=
      List.forall_mem_singleton.mpr ⟨hline, hend, hlength⟩
    obtain ⟨hok, -, hall⟩ := peer_decodes hclean ⟨[], by rw [List.append_nil, hencode]⟩
    exact ⟨hok, hall hencode⟩

end ChatServer.Codec
