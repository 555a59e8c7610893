import AurixVoice.Library.Radix
import AurixVoice.Recording.PacketOrderer
import Mathlib.Data.UInt

/-! A track as a file: the pages that are written and read back; the checksum is any function of the bytes. -/

namespace AurixVoice.Recording.Ogg

open List

variable (crc : Bytes → UInt32)

def oggCapture : Bytes := [79, 103, 103, 83]

def opusHead : Bytes := [79, 112, 117, 115, 72, 101, 97, 100]

def opusTags : Bytes := [79, 112, 117, 115, 84, 97, 103, 115]

def vendor : Bytes := [65, 117, 114, 105, 120, 32, 49, 46, 48, 46, 48]

def maxPacketBytes : ℕ := 8 * 1275

def setCrc (page : Bytes) (value : UInt32) : Bytes := page.take 22 ++ (toLe 4 value.toNat ++ page.drop 26)

def segmentsOf (data : Bytes) : Bytes :=
  replicate (data.length / 255) 255 ++ [UInt8.ofNat (data.length % 255)] ++ if data = [] then [0] else []

structure OggOpusWriter where
  written : Bytes
  serial : UInt32
  pageSeq : UInt32
  granule : UInt64
  sampleRate : UInt32
  channels : UInt8
  preSkip : UInt16
  finished : Bool

namespace OggOpusWriter

def blankPage (w : OggOpusWriter) (data : Bytes) (granule : UInt64) (headerType : UInt8) : Bytes :=
  oggCapture ++ (0 :: headerType :: (toLe 8 granule.toNat ++ (toLe 4 w.serial.toNat ++ (toLe 4 w.pageSeq.toNat ++
    (toLe 4 0 ++ UInt8.ofNat (segmentsOf data).length :: (segmentsOf data ++ data))))))

def writePage (w : OggOpusWriter) (data : Bytes) (granule : UInt64) (headerType : UInt8) : OggOpusWriter :=
  let page := w.blankPage data granule headerType
  { w with written := w.written ++ setCrc page (crc page), pageSeq := w.pageSeq + 1 }

def idHeader (w : OggOpusWriter) : Bytes :=
  opusHead ++ (1 :: w.channels :: (toLe 2 w.preSkip.toNat ++ (toLe 4 w.sampleRate.toNat ++ (toLe 2 0 ++ [0]))))

def commentHeader : Bytes := opusTags ++ (toLe 4 vendor.length ++ (vendor ++ toLe 4 0))

def new (serial sampleRate : UInt32) (channels : UInt8) : OggOpusWriter :=
  let w : OggOpusWriter := ⟨[], serial, 0, 0, sampleRate, channels, 312, false⟩
  (w.writePage crc w.idHeader 0 0x02).writePage crc commentHeader 0 0x00

def writePacketWithDuration (w : OggOpusWriter) (data : Bytes) (samples : UInt64) : Except String OggOpusWriter :=
  if w.finished then .error "Writer already finished"
  else
    let w := { w with granule := w.granule + max samples 1 }
    .ok (w.writePage crc data w.granule 0x00)

def finish (w : OggOpusWriter) : OggOpusWriter :=
  if w.finished then w else { w with finished := true }.writePage crc [] w.granule 0x04

end OggOpusWriter

def oggFile (serial sampleRate : UInt32) (channels : UInt8) (packets : List (Payload × UInt64)) :
    Except String Bytes := do
  let w ← packets.foldlM (fun (w : OggOpusWriter) p => w.writePacketWithDuration crc p.1 p.2)
    (.new crc serial sampleRate channels)
  return (w.finish crc).written

structure OpusHead where
  channels : UInt8
  preSkip : ℕ
  granuleRate : ℕ
  deriving DecidableEq

def parseOpusHead (data : Bytes) : Except String OpusHead :=
  let channels := data.getD 9 0
  let granuleRate := ofLe ((data.drop 12).take 4)
  if data.length < 19 ∨ !opusHead.isPrefixOf data then .error "OpusHead header missing"
  else if data.getD 8 0 >>> 4 ≠ 0 then .error "unsupported OpusHead version"
  else if ¬ (1 ≤ channels ∧ channels ≤ 2) then .error "only mono and stereo Opus streams are supported"
  else if granuleRate ∉ [8000, 12000, 16000, 24000, 48000] then .error "unsupported OpusHead input sample rate"
  else .ok ⟨channels, ofLe ((data.drop 10).take 2), granuleRate⟩

structure Parser where
  head : Option OpusHead := none
  packets : List OggPacket := []
  partialData : Bytes := []
  serial : Option ℕ := none
  logicalIndex : ℕ := 0

namespace Parser

def complete (s : Parser) (data : Bytes) : Except String Parser :=
  match s.logicalIndex with
  | 0 => (parseOpusHead data).map fun head => { s with head := some head, logicalIndex := 1 }
  | 1 => if opusTags.isPrefixOf data then .ok { s with logicalIndex := 2 } else .error "OpusTags header missing"
  | n =>
    if maxPacketBytes < data.length then .error "oversized Opus packet"
    else
      .ok { s with
        packets := if data = [] then s.packets else s.packets ++ [⟨data, none⟩]
        logicalIndex := n + 1 }

def readSegments (s : Parser) : Bytes → Bytes → Except String Parser
  | [], _ => .ok s
  | seg :: segments, body => do
    let data := s.partialData ++ body.take seg.toNat
    let next ← if seg.toNat < 255 then complete { s with partialData := [] } data
      else .ok { s with partialData := data }
    next.readSegments segments (body.drop seg.toNat)

/-- The granule of a page is that of the last packet completed on it, which is the last one so far. -/
def setGranule (s : Parser) (before granule : ℕ) : Parser :=
  if granule ≠ 2 ^ 64 - 1 ∧ before < s.packets.length then
    { s with
      packets := s.packets.dropLast ++ s.packets.getLast?.toList.map fun p => { p with pageGranule := some granule } }
  else s

def readPage (s : Parser) (bytes : Bytes) : Except String (Parser × Bool × Bytes) :=
  let headerType := bytes.getD 5 0
  let granule := ofLe ((bytes.drop 6).take 8)
  let pageSerial := ofLe ((bytes.drop 14).take 4)
  let storedCrc := ofLe ((bytes.drop 22).take 4)
  let nseg := (bytes.getD 26 0).toNat
  let segments := (bytes.drop 27).take nseg
  let bodyLen := segments.foldr (fun seg n => seg.toNat + n) 0
  let body := (bytes.drop (27 + nseg)).take bodyLen
  let pageLen := 27 + nseg + bodyLen
  if bytes.length < 27 ∨ bytes.take 4 ≠ oggCapture then .error "page capture pattern missing"
  else if bytes.length < 27 + nseg then .error "truncated segment table"
  else if bytes.length < pageLen then .error "truncated page body"
  else if (crc (setCrc (bytes.take pageLen) 0)).toNat ≠ storedCrc then .error "page CRC mismatch"
  else if ∃ serial ∈ s.serial, serial ≠ pageSerial then .error "multiplexed Ogg streams are not supported"
  else do
    let partialData := if headerType &&& 0x01 = 0 then [] else s.partialData
    let after ← { s with serial := some pageSerial, partialData := partialData }.readSegments segments body
    .ok (after.setGranule s.packets.length granule, headerType &&& 0x04 ≠ 0, bytes.drop pageLen)

/-- Every page takes some of the bytes, so as many turns as there are bytes are enough. -/
def readPages : ℕ → Parser → Bytes → Except String Parser
  | 0, s, _ => .ok s
  | turns + 1, s, bytes =>
    if bytes = [] then .ok s
    else do
      let (s, eos, rest) ← s.readPage crc bytes
      if eos then .ok s else readPages turns s rest

end Parser

open Ogg.Parser (complete readPages readSegments setGranule)

def parseOggOpus (bytes : Bytes) : Except String (OpusHead × List OggPacket) := do
  let s ← readPages crc bytes.length {} bytes
  match s.head with
  | none => .error "OpusHead header missing"
  | some head => .ok (head, s.packets)

lemma readSegments_lacing (s : Parser) (k : ℕ) {r : ℕ} (hr : r < 255) {data : Bytes} (hlen : data.length = 255 * k + r)
    (rest : Bytes) :
    s.readSegments (replicate k 255 ++ UInt8.ofNat r :: rest) data =
      (complete { s with partialData := [] } (s.partialData ++ data)).bind fun s => s.readSegments rest [] := by
  induction k generalizing s data with
  | zero =>
    have hseg : (UInt8.ofNat r).toNat = r := UInt8.toNat_ofNat_of_lt' (Nat.lt_succ_of_lt hr)
    have htake : data.take r = data := take_of_length_le (by omega)
    have hdrop : data.drop r = [] := drop_eq_nil_of_le (by omega)
    simp only [replicate_zero, nil_append, readSegments, hseg, hr, if_true, htake, hdrop]
    rfl
  | succ k ih =>
    have hdrop : (data.drop 255).length = 255 * k + r := by
      rw [length_drop]
      omega
    have hih := ih { s with partialData := s.partialData ++ data.take 255 } hdrop
    rw [append_assoc, take_append_drop] at hih
    rw [← hih, replicate_succ, cons_append, readSegments]
    rfl

lemma bodyLen_replicate (k n : ℕ) (segments : Bytes) :
    (replicate k 255 ++ segments).foldr (fun (seg : UInt8) n => seg.toNat + n) n =
      255 * k + segments.foldr (fun (seg : UInt8) n => seg.toNat + n) n := by
  induction k with
  | zero => simp
  | succ k ih =>
    rw [replicate_succ, cons_append, foldr_cons, ih]
    change 255 + _ = _
    omega

lemma bodyLen_segmentsOf (data : Bytes) :
    (segmentsOf data).foldr (fun (seg : UInt8) n => seg.toNat + n) 0 = data.length := by
  have hseg : (UInt8.ofNat (data.length % 255)).toNat = data.length % 255 :=
    UInt8.toNat_ofNat_of_lt' (lt_of_lt_of_le (Nat.mod_lt _ (by decide)) (by decide))
  have htail : (if data = [] then [0] else []).foldr (fun (seg : UInt8) n => seg.toNat + n) 0 = 0 := by
    split <;> rfl
  rw [segmentsOf, append_assoc, bodyLen_replicate, singleton_append, foldr_cons, htail, hseg]
  omega

lemma length_segmentsOf {data : Bytes} (h : data.length ≤ maxPacketBytes) : (segmentsOf data).length < 256 := by
  have htail : (if data = [] then [(0 : UInt8)] else []).length ≤ 1 := by
    split <;> simp
  unfold maxPacketBytes at h
  simp only [segmentsOf, length_append, length_replicate, length_singleton]
  omega

variable {headerType : UInt8}

lemma readPage_written (s : Parser) (w : OggOpusWriter) {data : Bytes} (hlen : data.length ≤ maxPacketBytes)
    (granule : UInt64) (htype : headerType &&& 0x01 = 0)
    (hserial : ∀ serial ∈ s.serial, serial = w.serial.toNat) (rest : Bytes) :
    s.readPage crc (setCrc (w.blankPage data granule headerType) (crc (w.blankPage data granule headerType)) ++ rest) =
      (readSegments { s with serial := some w.serial.toNat, partialData := [] } (segmentsOf data) data).bind
        fun after => .ok (after.setGranule s.packets.length granule.toNat, decide (headerType &&& 0x04 ≠ 0), rest) := by
  have hnseg : (UInt8.ofNat (segmentsOf data).length).toNat = (segmentsOf data).length :=
    UInt8.toNat_ofNat_of_lt' (length_segmentsOf hlen)
  have hgranule : ofLe (toLe 8 granule.toNat) = granule.toNat := ofLe_toLe granule.toNat_lt
  have hnumber : ∀ n : UInt32, ofLe (toLe 4 n.toNat) = n.toNat := fun n => ofLe_toLe n.toNat_lt
  generalize hvalue : crc (w.blankPage data granule headerType) = value
  obtain ⟨header, hheader, hpage⟩ : ∃ header : Bytes, header.length = 27 ∧
      setCrc (w.blankPage data granule headerType) value = header ++ (segmentsOf data ++ data) :=
    ⟨_, rfl, (take_append_drop 27 _).symm⟩
  have hblank : setCrc (setCrc (w.blankPage data granule headerType) value) 0 =
    w.blankPage data granule headerType := rfl
  generalize hbytes : setCrc (w.blankPage data granule headerType) value ++ rest = bytes
  obtain ⟨hcapture, htype', hgranule', hserial', hcrc, hcount⟩ : bytes.take 4 = oggCapture ∧
      bytes.getD 5 0 = headerType ∧ (bytes.drop 6).take 8 = toLe 8 granule.toNat ∧
      (bytes.drop 14).take 4 = toLe 4 w.serial.toNat ∧ (bytes.drop 22).take 4 = toLe 4 value.toNat ∧
      bytes.getD 26 0 = UInt8.ofNat (segmentsOf data).length := by
    rw [← hbytes]
    exact ⟨rfl, rfl, rfl, rfl, rfl, rfl⟩
  have hrest : bytes = header ++ (segmentsOf data ++ (data ++ rest)) := by
    rw [← hbytes, hpage, append_assoc, append_assoc]
  have hlength : bytes.length = 27 + ((segmentsOf data).length + (data.length + rest.length)) := by
    rw [hrest, length_append, length_append, length_append, hheader]
  have hsegments : bytes.drop 27 = segmentsOf data ++ (data ++ rest) := by
    rw [hrest]
    exact drop_left' hheader
  have hbody : bytes.drop (27 + (segmentsOf data).length) = data ++ rest := by
    rw [← drop_drop, hsegments, drop_left]
  have hpageLen : (header ++ (segmentsOf data ++ data)).length = 27 + (segmentsOf data).length + data.length := by
    rw [length_append, length_append, hheader, add_assoc]
  have htake : bytes.take (27 + (segmentsOf data).length + data.length) =
      setCrc (w.blankPage data granule headerType) value := by
    rw [← hbytes, hpage]
    exact take_left' hpageLen
  have hdrop : bytes.drop (27 + (segmentsOf data).length + data.length) = rest := by
    rw [← drop_drop, hbody, drop_left]
  have hsame : ¬ ∃ serial ∈ s.serial, serial ≠ w.serial.toNat := by
    rintro ⟨serial, hmem, hne⟩
    exact hne (hserial serial hmem)
  unfold Parser.readPage
  simp only [hcapture, htype', hgranule', hserial', hcrc, hcount, hnseg, hsegments, hbody, htake, hdrop, hblank,
    hgranule, hnumber, hvalue, htype, take_left, bodyLen_segmentsOf, if_neg hsame, ne_eq, not_true_eq_false,
    or_false, if_true, if_false]
  rw [if_neg (by omega), if_neg (by omega), if_neg (by omega)]
  rfl

structure Reads (w : OggOpusWriter) (s : Parser) (turns : ℕ) : Prop where
  pages : ∀ more rest, readPages crc (more + turns) {} (w.written ++ rest) = readPages crc more s rest
  turns_le : turns ≤ w.written.length
  serial : ∀ serial ∈ s.serial, serial = w.serial.toNat

structure Tracks (head : OpusHead) (w : OggOpusWriter) (track : Recording.OggOpusWriter) : Prop where
  reads : ∃ s turns, Reads crc w s turns ∧ s.head = some head ∧ s.packets = track.pages ∧ 2 ≤ s.logicalIndex
  granule : w.granule.toNat = track.granule
  finished : w.finished = false

variable {crc} {w : OggOpusWriter} {s after : Parser} {turns : ℕ} {data : Bytes} {head : OpusHead}
  {track : Recording.OggOpusWriter} {packets : List (Payload × UInt64)}

lemma length_page (w : OggOpusWriter) (data : Bytes) (granule : UInt64) (headerType : UInt8) (value : UInt32) :
    1 ≤ (setCrc (w.blankPage data granule headerType) value).length := Nat.le_add_left ..

lemma Reads.page (h : Reads crc w s turns) (hlen : data.length ≤ maxPacketBytes) (granule : UInt64)
    (htype : headerType &&& 0x01 = 0)
    (hafter : readSegments { s with serial := some w.serial.toNat, partialData := [] } (segmentsOf data) data =
      .ok after) (more : ℕ) (rest : Bytes) :
    readPages crc (more + (turns + 1)) {} ((w.writePage crc data granule headerType).written ++ rest) =
      if headerType &&& 0x04 ≠ 0 then .ok (after.setGranule s.packets.length granule.toNat)
      else readPages crc more (after.setGranule s.packets.length granule.toNat) rest := by
  have hread := readPage_written crc s w hlen granule htype h.serial rest
  have hne := length_page w data granule headerType (crc (w.blankPage data granule headerType))
  rw [hafter] at hread
  have hturns : more + (turns + 1) = more + 1 + turns := by omega
  rw [hturns, OggOpusWriter.writePage, append_assoc, h.pages, readPages, if_neg, hread]
  · simp [Except.bind, bind]
  · intro hnil
    rw [(append_eq_nil_iff.mp hnil).1] at hne
    exact absurd hne (by decide)

lemma complete_packet (hs : 2 ≤ s.logicalIndex) (hlen : data.length ≤ maxPacketBytes) :
    s.complete data = .ok { s with
      packets := if data = [] then s.packets else s.packets ++ [⟨data, none⟩]
      logicalIndex := s.logicalIndex + 1 } := by
  obtain ⟨n, hn⟩ := Nat.exists_eq_add_of_le hs
  rw [add_comm] at hn
  simp [complete, hn, not_lt.mpr hlen]

lemma readSegments_segmentsOf (hs : s.partialData = []) (hdata : data ≠ []) :
    s.readSegments (segmentsOf data) data = s.complete data := by
  have hlacing := readSegments_lacing s (data.length / 255) (Nat.mod_lt data.length (by decide))
    (Nat.div_add_mod data.length 255).symm []
  obtain ⟨head, packets, partialData, serial, index⟩ := s
  subst hs
  rw [segmentsOf, if_neg hdata, append_nil, hlacing, nil_append]
  cases complete ⟨head, packets, [], serial, index⟩ data <;> rfl

lemma Reads.writePage (h : Reads crc w s turns) (hdata : data ≠ []) (hlen : data.length ≤ maxPacketBytes)
    (granule : UInt64) (htype : headerType = 0 ∨ headerType = 2)
    (hafter : complete { s with serial := some w.serial.toNat, partialData := [] } data = .ok after)
    (hserial : after.serial = some w.serial.toNat) :
    Reads crc (w.writePage crc data granule headerType) (after.setGranule s.packets.length granule.toNat)
      (turns + 1) where
  pages more rest := by
    have hflags : headerType &&& 0x01 = 0 ∧ headerType &&& 0x04 = 0 := by
      obtain rfl | rfl := htype <;> decide
    rw [h.page hlen granule hflags.1 ((readSegments_segmentsOf rfl hdata).trans hafter), if_neg (not_not.mpr hflags.2)]
  turns_le := by
    have hpage := length_page w data granule headerType (crc (w.blankPage data granule headerType))
    rw [OggOpusWriter.writePage, length_append]
    exact add_le_add h.turns_le hpage
  serial serial hmem := by
    have hsame : (after.setGranule s.packets.length granule.toNat).serial = after.serial := by
      unfold setGranule
      split <;> rfl
    rw [hsame, hserial] at hmem
    exact (Option.some.inj hmem).symm

lemma parseOpusHead_idHeader (hchannels : w.channels = 1 ∨ w.channels = 2)
    (hrate : w.sampleRate.toNat ∈ [8000, 12000, 16000, 24000, 48000]) :
    parseOpusHead w.idHeader = .ok ⟨w.channels, w.preSkip.toNat, w.sampleRate.toNat⟩ := by
  have hskip : ofLe (toLe 2 w.preSkip.toNat) = w.preSkip.toNat := ofLe_toLe w.preSkip.toNat_lt
  have hgranule : ofLe (toLe 4 w.sampleRate.toNat) = w.sampleRate.toNat := ofLe_toLe w.sampleRate.toNat_lt
  have hhead : w.idHeader.length = 19 ∧ opusHead.isPrefixOf w.idHeader = true ∧ w.idHeader.getD 8 0 = 1 ∧
      w.idHeader.getD 9 0 = w.channels ∧ (w.idHeader.drop 10).take 2 = toLe 2 w.preSkip.toNat ∧
      (w.idHeader.drop 12).take 4 = toLe 4 w.sampleRate.toNat := ⟨rfl, rfl, rfl, rfl, rfl, rfl⟩
  obtain ⟨hlength, hmagic, hversion, hcount, hskip', hgranule'⟩ := hhead
  have hmono : 1 ≤ w.channels ∧ w.channels ≤ 2 := by
    obtain h | h := hchannels <;> rw [h] <;> decide
  simp only [parseOpusHead, hlength, hmagic, hversion, hcount, hskip', hgranule', hskip, hgranule, hmono, hrate]
  rfl

lemma tracks_new (crc : Bytes → UInt32) (serial : UInt32) {sampleRate : UInt32} {channels : UInt8}
    (hchannels : channels = 1 ∨ channels = 2) (hrate : sampleRate.toNat ∈ [8000, 12000, 16000, 24000, 48000]) :
    Tracks crc ⟨channels, 312, sampleRate.toNat⟩ (.new crc serial sampleRate channels) ⟨sampleRate.toNat, 0, []⟩ := by
  let w : OggOpusWriter := ⟨[], serial, 0, 0, sampleRate, channels, 312, false⟩
  let head : OpusHead := ⟨channels, 312, sampleRate.toNat⟩
  have hstart : Reads crc w {} 0 := ⟨fun _ _ => rfl, le_refl 0, fun _ h => by cases h⟩
  have hhead : complete { serial := some serial.toNat } w.idHeader =
      .ok { head := some head, serial := some serial.toNat, logicalIndex := 1 } := by
    rw [complete, parseOpusHead_idHeader hchannels hrate]
    rfl
  have hlen : w.idHeader.length ≤ maxPacketBytes := Nat.le_of_ble_eq_true rfl
  have hid : Reads crc (w.writePage crc w.idHeader 0 0x02)
      { head := some head, serial := some serial.toNat, logicalIndex := 1 } 1 :=
    hstart.writePage (cons_ne_nil _ _) hlen 0 (.inr rfl) hhead rfl
  have hcomment : complete { head := some head, serial := some serial.toNat, logicalIndex := 1 }
      OggOpusWriter.commentHeader = .ok { head := some head, serial := some serial.toNat, logicalIndex := 2 } := rfl
  have htags := hid.writePage (by decide) (by decide) 0 (.inl rfl) hcomment rfl
  exact ⟨⟨_, _, htags, rfl, rfl, le_refl 2⟩, rfl, rfl⟩

lemma Tracks.writePacket (h : Tracks crc head w track) (hdata : data ≠ []) (hlen : data.length ≤ maxPacketBytes)
    {samples : UInt64} (hsum : track.granule + max samples.toNat 1 < 2 ^ 64 - 1) :
    ∃ w', w.writePacketWithDuration crc data samples = .ok w' ∧
      Tracks crc head w' (track.writePacketWithDuration data samples.toNat) := by
  obtain ⟨⟨s, turns, hreads, hhead, hpackets, hindex⟩, hgranule, hfinished⟩ := h
  have hmax : (max samples 1).toNat = max samples.toNat 1 := by
    change (if samples ≤ 1 then 1 else samples).toNat = _
    split
    next hle => exact (max_eq_right (UInt64.le_iff_toNat_le.mp hle)).symm
    next hlt => exact (max_eq_left (le_of_lt (UInt64.lt_iff_toNat_lt.mp (UInt64.not_le.mp hlt)))).symm
  have hnext : (w.granule + max samples 1).toNat = track.granule + max samples.toNat 1 := by
    rw [UInt64.toNat_add, hmax, hgranule, Nat.mod_eq_of_lt (by omega)]
  have hadvanced : Reads crc { w with granule := w.granule + max samples 1 } s turns :=
    ⟨hreads.pages, hreads.turns_le, hreads.serial⟩
  have hwritten := hadvanced.writePage hdata hlen (w.granule + max samples 1) (.inl rfl)
    (complete_packet hindex hlen) rfl
  refine ⟨_, if_neg (Bool.eq_false_iff.mp hfinished), ⟨⟨_, _, hwritten, ?_⟩, hnext, hfinished⟩⟩
  have hlast : s.packets.length < (s.packets ++ [(⟨data, none⟩ : OggPacket)]).length := by
    rw [length_append]
    exact Nat.lt_succ_self _
  rw [setGranule, if_pos ⟨by omega, by rw [if_neg hdata]; exact hlast⟩]
  refine ⟨hhead, ?_, Nat.le_succ_of_le hindex⟩
  simp only [if_neg hdata, dropLast_concat, getLast?_concat, hnext, hpackets]
  rfl

lemma readSegments_empty (hs : s.partialData = []) (hindex : 2 ≤ s.logicalIndex) :
    s.readSegments (segmentsOf []) [] = .ok { s with logicalIndex := s.logicalIndex + 2 } := by
  obtain ⟨head, packets, partialData, serial, index⟩ := s
  obtain ⟨n, rfl⟩ := Nat.exists_eq_add_of_le' hindex
  subst hs
  rfl

lemma Tracks.finish (h : Tracks crc head w track) :
    parseOggOpus crc (w.finish crc).written = .ok (head, track.pages) := by
  obtain ⟨⟨s, turns, hreads, hhead, hpackets, hindex⟩, hgranule, hfinished⟩ := h
  rw [OggOpusWriter.finish, if_neg (Bool.eq_false_iff.mp hfinished)]
  have hclosing : Reads crc { w with finished := true } s turns := ⟨hreads.pages, hreads.turns_le, hreads.serial⟩
  generalize hw : ({ w with finished := true } : OggOpusWriter) = closing at hclosing ⊢
  have hnil : ([] : Bytes).length ≤ maxPacketBytes := Nat.zero_le _
  have hflag : (0x04 : UInt8) &&& 0x01 = 0 := by decide
  have hlength : turns + 1 ≤ (closing.writePage crc [] w.granule 0x04).written.length := by
    rw [OggOpusWriter.writePage, length_append]
    exact add_le_add hclosing.turns_le (length_page ..)
  obtain ⟨more, hmore⟩ := Nat.exists_eq_add_of_le' hlength
  have hread := hclosing.page hnil w.granule hflag (readSegments_empty rfl hindex) more []
  rw [append_nil, ← hmore] at hread
  rw [parseOggOpus, hread]
  simp [setGranule, hhead, hpackets, bind, Except.bind]

def recordAll (track : Recording.OggOpusWriter) (packets : List (Payload × UInt64)) : Recording.OggOpusWriter :=
  packets.foldl (fun track p => track.writePacketWithDuration p.1 p.2.toNat) track

lemma granule_le_recordAll (track : Recording.OggOpusWriter) (packets : List (Payload × UInt64)) :
    track.granule ≤ (recordAll track packets).granule := by
  induction packets generalizing track with
  | nil => exact le_refl _
  | cons p packets ih =>
    have hnext := ih (track.writePacketWithDuration p.1 p.2.toNat)
    exact le_trans (Nat.le_add_right _ _) hnext

lemma Tracks.writePackets (h : Tracks crc head w track)
    (hpackets : ∀ p ∈ packets, p.1 ≠ [] ∧ p.1.length ≤ maxPacketBytes)
    (hsum : (recordAll track packets).granule < 2 ^ 64 - 1) :
    ∃ w', packets.foldlM (fun (w : OggOpusWriter) p => w.writePacketWithDuration crc p.1 p.2) w = .ok w' ∧
      Tracks crc head w' (recordAll track packets) := by
  induction packets generalizing w track with
  | nil => exact ⟨w, rfl, h⟩
  | cons p packets ih =>
    obtain ⟨hdata, hlen⟩ := hpackets p mem_cons_self
    have hle := granule_le_recordAll (track.writePacketWithDuration p.1 p.2.toNat) packets
    obtain ⟨w₁, hw₁, h₁⟩ := h.writePacket hdata hlen (lt_of_le_of_lt hle hsum)
    obtain ⟨w', hw', h'⟩ := ih h₁ (fun q hq => hpackets q (mem_cons_of_mem _ hq)) hsum
    refine ⟨w', ?_, h'⟩
    rw [foldlM_cons, hw₁]
    exact hw'

/-- What is written is read back, each packet with the sum of the durations up to it, as long as the sum stays
below the granule that stands for none. -/
theorem ogg_read_back (crc : Bytes → UInt32) (serial : UInt32) {sampleRate : UInt32} {channels : UInt8}
    (hchannels : channels = 1 ∨ channels = 2) (hrate : sampleRate.toNat ∈ [8000, 12000, 16000, 24000, 48000])
    (packets : List (Payload × UInt64)) (hpackets : ∀ p ∈ packets, p.1 ≠ [] ∧ p.1.length ≤ maxPacketBytes)
    (hsum : (recordAll ⟨sampleRate.toNat, 0, []⟩ packets).granule < 2 ^ 64 - 1) :
    (oggFile crc serial sampleRate channels packets).bind (parseOggOpus crc) =
      .ok (⟨channels, 312, sampleRate.toNat⟩, (recordAll ⟨sampleRate.toNat, 0, []⟩ packets).pages) := by
  obtain ⟨w, hw, htracks⟩ := (tracks_new crc serial hchannels hrate).writePackets hpackets hsum
  rw [oggFile, hw]
  exact htracks.finish

theorem ogg_read_back_two : (oggFile (fun _ => 0) 7 48000 1 [([1, 2], 960), ([3], 0)]).bind (parseOggOpus fun _ => 0) =
    .ok (⟨1, 312, 48000⟩, [⟨[1, 2], some 960⟩, ⟨[3], some 961⟩]) :=
  ogg_read_back (fun _ => 0) 7 (.inl rfl) (by decide) _ (by decide) (by decide)

theorem ogg_granule_lost : (oggFile (fun _ => 0) 7 48000 1 [([1], 2 ^ 64 - 1)]).bind (parseOggOpus fun _ => 0) =
    .ok (⟨1, 312, 48000⟩, [⟨[1], none⟩]) := by
  decide +kernel

end AurixVoice.Recording.Ogg
