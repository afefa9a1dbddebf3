import Mathlib.Data.Set.List
import Vsid.Laws.DatabaseScripts
import Vsid.Laws.SameConnection
import Vsid.Laws.TrainingMeans
import Vsid.Tools.ParsePcapFlows

/-!
# From the list of flows to the reports

The script that labels the flows of a capture and the training program read the capture with two
libraries, write and read one document with two more, and find a flow by two texts and by a hash.
They agree: if the script has seen the connections that the program is handed, the program reads
its list without skipping an entry and trains the labelled model with every flow that it reports
for the capture, whatever the addresses and ports (`labelled_all`).
-/

set_option autoImplicit false

namespace Vsid

open Rendering

/-! ## Addresses -/

theorem octet_decimal {n : Nat} (hn : n < 256) : octet (decimal n).toList = some n := by
  have hall : ∀ n < 256, octet (Nat.toDigits 10 n) = some n := by decide +kernel
  rw [decimal, Nat.toString_eq_ofList_toDigits, String.toList_ofList]
  exact hall n hn

theorem cStr_dotted (ip : UInt32) : cStr (dotted ip) = (dotted ip).toList := by
  unfold cStr
  refine List.takeWhile_eq_self_iff.mpr fun c hc => ?_
  rw [bne_iff_ne]
  rintro rfl
  exact not_mem_dotted (by decide) (by decide) ip hc

/-- **An address is read as it was shown.** -/
theorem inetPton_dotted (ip : UInt32) : inetPton (dotted ip) = some ip := by
  have hdot : ∀ n, '.' ∉ (decimal n).toList := not_mem_decimal (by decide)
  have hlt := ip.toNat_lt
  unfold inetPton
  rw [cStr_dotted, dotted, toList_join, toList_join, toList_join, split_cons (hdot _),
    split_cons (hdot _), split_cons (hdot _), split_of_not_mem (hdot _)]
  simp only
  rw [octet_decimal (Nat.mod_lt _ (by decide)), octet_decimal (Nat.mod_lt _ (by decide)),
    octet_decimal (Nat.mod_lt _ (by decide)), octet_decimal (by omega)]
  have hsum : ip.toNat % 256 + 256 * (ip.toNat / 256 % 256) + 65536 * (ip.toNat / 65536 % 256) +
      16777216 * (ip.toNat / 16777216) = ip.toNat := by
    omega
  simp only [Option.bind_eq_bind, Option.bind_some, hsum, UInt32.ofNat_toNat]

/-! ## The list of the script -/

namespace ParsePcapFlows

/-- What is found is kept, and every tuple is found under its text. -/
theorem foldl_addTuple (ts found : List ScriptTuple) :
    (∀ t ∈ ts.foldl addTuple found, t ∈ found ∨ t ∈ ts) ∧ found ⊆ ts.foldl addTuple found ∧
      ∀ t ∈ ts, ∃ u ∈ ts.foldl addTuple found, u.dictRepr = t.dictRepr := by
  induction ts generalizing found with
  | nil => exact ⟨fun t ht => Or.inl ht, fun t ht => ht, fun t ht => absurd ht List.not_mem_nil⟩
  | cons t ts ih =>
    obtain ⟨hfrom, hkept, hfound⟩ := ih (addTuple found t)
    have hstep : found ⊆ addTuple found t ∧ (∀ u ∈ addTuple found t, u ∈ found ∨ u = t) ∧
        ∃ u ∈ addTuple found t, u.dictRepr = t.dictRepr := by
      unfold addTuple
      split
      next hany =>
        obtain ⟨u, hu, hrepr⟩ := List.any_eq_true.mp hany
        exact ⟨fun u hu => hu, fun u hu => Or.inl hu, u, hu, beq_iff_eq.mp hrepr⟩
      next =>
        refine ⟨List.subset_append_left _ _, fun u hu => ?_, t, List.mem_append_right _
          List.mem_cons_self, rfl⟩
        exact (List.mem_append.mp hu).imp_right List.mem_singleton.mp
    obtain ⟨hsub, hnew, u, hu, hrepr⟩ := hstep
    rw [List.foldl_cons]
    refine ⟨fun v hv => ?_, fun v hv => hkept (hsub hv),
      List.forall_mem_cons.mpr ⟨⟨u, hkept hu, hrepr⟩, hfound⟩⟩
    rcases hfrom v hv with hv | hv
    · exact (hnew v hv).imp_right fun heq => List.mem_cons.mpr (Or.inl heq)
    · exact Or.inr (List.mem_cons_of_mem t hv)

/-- The script has seen a packet of that tuple. -/
def Sees (packets : List IpPacket) (t : IPv4Tuple) : Prop :=
  ∃ packet ∈ packets, packet.p = t.transport.toNat ∧ tuple packet = some t.ofResults

/-- What the script makes of a TCP or UDP packet is the tuple of a connection. -/
theorem exists_of_tuple {packet : IpPacket} (hp : packet.p = 17 ∨ packet.p = 6) {t : ScriptTuple}
    (h : tuple packet = some t) : ∃ u : IPv4Tuple, u.IsTransported ∧ u.ofResults = t := by
  obtain ⟨srcPort, hsrc, h⟩ := Option.bind_eq_some_iff.mp h
  obtain ⟨dstPort, hdst, h⟩ := Option.bind_eq_some_iff.mp h
  cases h
  rcases hp with hp | hp
  · exact ⟨⟨packet.src, srcPort, packet.dst, dstPort, ipprotoUdp⟩, Or.inr rfl, by rw [hp]; rfl⟩
  · exact ⟨⟨packet.src, srcPort, packet.dst, dstPort, ipprotoTcp⟩, Or.inl rfl, by rw [hp]; rfl⟩

end ParsePcapFlows

/-! ## Reading it -/

namespace TrainingInput

open ParsePcapFlows

variable {R : Type} {Y : Conversions R} {db : ProtocolModelDb R} {label : String}

/-- The two libraries agree on texts and port numbers. -/
structure Agree (Y : Conversions R) : Prop where
  string : ∀ text, Y.string.Keeps text
  uint16 : ∀ n, Y.uint16.Keeps n

theorem memberAs_of {α : Type} {c : Codec α} {x : α} (h : c.Keeps x)
    {entries : List (String × Yaml)} {key : String} (hkey : entries.lookup key = some (.of c x)) :
    (Yaml.map entries).memberAs c key = some x := by
  unfold Yaml.memberAs
  rw [Yaml.fieldAs_of h hkey]
  rfl

/-- **An entry is read as it was written.** -/
theorem readFlow_asDict (hagree : Agree Y) (hknown : (db.find label).isSome = true)
    {u : IPv4Tuple} (hu : u.IsTransported) :
    readFlow Y db (asDict Y label u.ofResults) = some (some { tuple := u, protocol := label }) := by
  have htransport : strToTransport (if u.ofResults.protocol = 6 then "TCP" else "UDP") =
      u.transport := by
    have hprotocol : u.ofResults.protocol = u.transport.toNat := rfl
    rw [hprotocol]
    rcases hu with h | h <;> rw [h] <;> rfl
  have hnot : u.transport ≠ 0 := by
    rcases hu with h | h <;> rw [h] <;> decide
  have hnone : (db.find label).isNone = false := Option.isNone_eq_false_iff.mpr hknown
  have hsrcIp : (asDict Y label u.ofResults).memberAs Y.string "src_ip" = some (dotted u.srcIp) :=
    memberAs_of (hagree.string _) rfl
  have hsrcPort : (asDict Y label u.ofResults).memberAs Y.uint16 "src_port" = some u.srcPort :=
    (memberAs_of (hagree.uint16 _) rfl).trans (congrArg some UInt16.ofNat_toNat)
  have hdstIp : (asDict Y label u.ofResults).memberAs Y.string "dst_ip" = some (dotted u.dstIp) :=
    memberAs_of (hagree.string _) rfl
  have hdstPort : (asDict Y label u.ofResults).memberAs Y.uint16 "dst_port" = some u.dstPort :=
    (memberAs_of (hagree.uint16 _) rfl).trans (congrArg some UInt16.ofNat_toNat)
  have hname : (asDict Y label u.ofResults).memberAs Y.string "transport" =
      some (if u.ofResults.protocol = 6 then "TCP" else "UDP") :=
    memberAs_of (hagree.string _) rfl
  have hlabel : (asDict Y label u.ofResults).memberAs Y.string "protocol" = some label :=
    memberAs_of (hagree.string _) rfl
  generalize asDict Y label u.ofResults = node at hsrcIp hsrcPort hdstIp hdstPort hname hlabel
  unfold readFlow readLabel
  simp only [hsrcIp, hsrcPort, hdstIp, hdstPort, hname, hlabel, inetPton_dotted, htransport,
    Option.bind_eq_bind, Option.bind_some, if_neg hnot, hnone, Bool.false_eq_true, if_false]

/-- The document with an entry for each of these connections, under one label. -/
def listing (Y : Conversions R) (filename label : String) (us : List IPv4Tuple) : Yaml :=
  .sequence
    [.map
      [("file", .of Y.string filename),
        ("flows", .sequence (us.map fun u => asDict Y label u.ofResults))]]

/-- What the training program works with when it has read them all. -/
def listed (filename label : String) (us : List IPv4Tuple) : ListedFile :=
  { filename := filename, flows := us.map fun u => { tuple := u, protocol := label } }

/-- **The list of the script is read in full.** -/
theorem read_outputYaml (hagree : Agree Y) (hknown : (db.find label).isSome = true)
    {filename : String} {packets : List IpPacket} {root : Yaml}
    (h : outputYaml Y filename label packets = some root) :
    ∃ us : List IPv4Tuple, root = listing Y filename label us ∧
      read Y db root = some [listed filename label us] ∧
      ∀ t, t.IsTransported → Sees packets t → ∃ u ∈ us, u.sameFlow t = true := by
  obtain ⟨tuples, htuples, h⟩ := Option.bind_eq_some_iff.mp h
  cases h
  rw [Keyed.mapM_eq_some] at htuples
  obtain ⟨hfrom, -, hfound⟩ := foldl_addTuple tuples []
  -- every tuple of the list is one of a connection
  have hconnection : tuples.foldl addTuple [] ∈
      Set.range (List.map fun u : { u : IPv4Tuple // u.IsTransported } => u.val.ofResults) := by
    rw [Set.range_list_map]
    intro t ht
    have hmem : t ∈ tuples := (hfrom t ht).resolve_left List.not_mem_nil
    obtain ⟨packet, hpacket, htuple⟩ :=
      List.mem_map.mp (htuples ▸ List.mem_map_of_mem (f := some) hmem)
    have hp := (List.mem_filter.mp hpacket).2
    rw [Bool.or_eq_true, beq_iff_eq, beq_iff_eq] at hp
    obtain ⟨u, hu, rfl⟩ := exists_of_tuple hp htuple
    exact ⟨⟨u, hu⟩, rfl⟩
  obtain ⟨us, hlist⟩ := hconnection
  rw [← hlist] at hfound ⊢
  refine ⟨us.map Subtype.val, ?_, ?_, fun t ht hsees => ?_⟩
  · rw [listing, List.map_map, List.map_map]
    rfl
  · have hflows : ((us.map fun u => u.val.ofResults).map (asDict Y label)).mapM (readFlow Y db) =
        some ((us.map Subtype.val).map fun u => some { tuple := u, protocol := label }) := by
      rw [Keyed.mapM_eq_some, List.map_map, List.map_map, List.map_map, List.map_map]
      exact List.map_congr_left fun u _ => readFlow_asDict hagree hknown u.property
    have hreduce : ((us.map Subtype.val).map fun u =>
        some ({ tuple := u, protocol := label } : TrainingFlow)).reduceOption =
          (us.map Subtype.val).map fun u => { tuple := u, protocol := label } := by
      rw [List.reduceOption, List.filterMap_map]
      exact congrFun List.filterMap_eq_map (us.map Subtype.val)
    generalize (us.map fun u => u.val.ofResults).map (asDict Y label) = nodes at hflows
    have hfilename : (Yaml.map [("file", .of Y.string filename), ("flows", .sequence nodes)]
        ).memberAs Y.string "file" = some filename := memberAs_of (hagree.string _) rfl
    have hread : readFile Y db (.map [("file", .of Y.string filename),
        ("flows", .sequence nodes)]) = some (listed filename label (us.map Subtype.val)) := by
      rw [readFile, hfilename, listed, ← hreduce]
      exact congrArg (Option.bind · fun flows =>
        some ({ filename := filename, flows := flows.reduceOption } : ListedFile)) hflows
    exact (congrArg (Option.bind · fun file => some [file]) hread)
  · obtain ⟨packet, hpacket, hp, htuple⟩ := hsees
    have hkept : packet ∈ packets.filter fun packet => packet.p == 17 || packet.p == 6 := by
      refine List.mem_filter.mpr ⟨hpacket, ?_⟩
      rw [Bool.or_eq_true, beq_iff_eq, beq_iff_eq, hp]
      rcases ht with ht | ht <;> rw [ht]
      · exact Or.inr rfl
      · exact Or.inl rfl
    have hmem : some t.ofResults ∈ tuples.map some := htuples ▸ htuple ▸ List.mem_map_of_mem hkept
    obtain ⟨_, hmem, heq⟩ := List.mem_map.mp hmem
    cases heq
    obtain ⟨_, hlisted, hrepr⟩ := hfound t.ofResults hmem
    obtain ⟨u, hu, rfl⟩ := List.mem_map.mp hlisted
    exact ⟨u.val, List.mem_map_of_mem hu, (ScriptTuple.dictRepr_eq_iff _ _).mp hrepr⟩

end TrainingInput

/-! ## Training with it -/

namespace Training

open ParsePcapFlows

variable {R : Type} [Double R] {S : Setup R} {Y : Conversions R} {label : String}

theorem isTransported_of_sameFlow {p : IPv4Packet} {t : IPv4Tuple}
    (h : t.sameFlow p.tuple = true) : t.IsTransported := by
  have htransport : t.transport = p.protocol := by
    rcases (IPv4Tuple.sameFlow_iff t p.tuple).mp h with h | h <;>
      exact (congrArg IPv4Tuple.transport h).symm
  unfold IPv4Packet.protocol at htransport
  cases hp : p.transport with
  | tcp flags =>
    rw [hp] at htransport
    exact Or.inl htransport
  | udp =>
    rw [hp] at htransport
    exact Or.inr htransport

/-- Flows that all have an entry with one label are all merged into its model. -/
theorem foldl_flowFinished_labelled {flows : List (Flow R)} {u : ProtocolModelUpdater R}
    (h : ∀ flow ∈ flows, ∃ it, (u.currentFile.flows.find? fun it => it.flowHash S == flow.hash) =
      some it ∧ it.protocol = label) :
    (flows.foldl (ProtocolModelUpdater.flowFinished S) u).database =
      flows.foldl (fun file flow => file.train (label, flow.attributeMeters)) u.database := by
  induction flows generalizing u with
  | nil => rfl
  | cons flow flows ih =>
    obtain ⟨⟨it, hfind, hprotocol⟩, hrest⟩ := List.forall_mem_cons.mp h
    have hdatabase : (u.flowFinished S flow).database =
        u.database.train (label, flow.attributeMeters) := by
      unfold ProtocolModelUpdater.flowFinished
      rw [hfind, ← hprotocol]
    rw [List.foldl_cons, List.foldl_cons, ih, hdatabase]
    rw [ProtocolModelUpdater.flowFinished_currentFile]
    exact hrest

/-- A flow that is reported for a capture was opened by one of its packets. -/
theorem Alone.opened (hseq : S.config.workerThreadsPerQueue = 0) {n : Nat}
    {packets : List IPv4Packet} {m : FlowManager R} (h : Alone S n packets m) {flow : Flow R}
    (hflow : flow ∈ m.reported) : ∃ p ∈ packets, flow.hash = S.flowHash p.tuple := by
  have hsequential := h.sequential
  obtain ⟨hindexed, -, hopened⟩ := hsequential.sound
  obtain ⟨-, i, hi⟩ := FlowManager.Sequential.marked (S := S.skip n) hseq hsequential hflow
  obtain ⟨p, hp, htuple⟩ := hopened i _ hi
  exact ⟨p, hp, (hindexed.keyed i _ hi).trans (congrArg (S.skip n).flowHash htuple)⟩

/-- **What the script has labelled is learned, all of it.** The script lists the connections of the
packets that it sees, under one label that the database knows; the training program reads that list
and a capture. If the script has seen a packet, of either direction, of every connection of which
the program is handed one, then the program reads an entry for each entry of the list, the labelled
model learns every flow that is reported for the capture, one after the other, and nothing else
happens to the database. -/
theorem labelled_all (hlearning : S.config.learningMode = true)
    (hseq : S.config.workerThreadsPerQueue = 0) {machine : Machine R} (fs : FileSystem)
    (hwalk : Run.Walks S machine.walk) (hagree : TrainingInput.Agree Y)
    {database : ProtocolModelFile R} (hdatabase : S.database = database.toProtocolModelDb)
    (hlabel : (database.toProtocolModelDb.find label).isSome = true) {filename : String}
    {capture : Capture} (hcapture : (fs filename).bind machine.capture = some capture)
    {packets : List IpPacket}
    (hsees : ∀ p ∈ capture.handed, ∃ t, t.sameFlow p.tuple = true ∧ Sees packets t) {root : Yaml}
    (hroot : outputYaml Y filename label packets = some root) :
    ∃ us final m, root = TrainingInput.listing Y filename label us ∧
      TrainingInput.read Y database.toProtocolModelDb root =
        some [TrainingInput.listed filename label us] ∧
      (Run.start database).processFiles S machine fs
        [TrainingInput.listed filename label us] = some final ∧
      Alone S 0 capture.handed m ∧
      final.updater.database =
        m.reported.foldl (fun file flow => file.train (label, flow.attributeMeters)) database := by
  obtain ⟨us, hlisting, hread, hlisted⟩ := TrainingInput.read_outputYaml hagree hlabel hroot
  obtain ⟨final, reports, hfinal, hheard, hknows⟩ := Run.processFiles_learns hlearning hseq fs hwalk
    [TrainingInput.listed filename label us]
    (Run.ready_start database (by rw [hdatabase]))
  cases hheard with
  | skipped hnone _ => exact absurd (hnone.symm.trans hcapture) (by simp)
  | @read _ _ _ _ capture' m hsome halone hrest =>
    cases hrest
    cases Option.some_inj.mp (hsome.symm.trans hcapture)
    refine ⟨us, final, m, hlisting, hread, hfinal, halone, hknows.database.trans ?_⟩
    refine foldl_flowFinished_labelled fun flow hflow => ?_
    obtain ⟨p, hp, hhash⟩ := halone.opened hseq hflow
    obtain ⟨t, ht, hseen⟩ := hsees p hp
    obtain ⟨u, hu, hlike⟩ := hlisted t (isTransported_of_sameFlow ht) hseen
    have hsame := IPv4Tuple.sameFlow_trans hlike ht
    have hentry : ∃ it ∈ us.map fun u => ({ tuple := u, protocol := label } : TrainingFlow),
        (it.flowHash S == flow.hash) = true :=
      ⟨_, List.mem_map_of_mem hu, beq_iff_eq.mpr ((S.flowHash_sameFlow hsame).trans hhash.symm)⟩
    obtain ⟨it, hfind⟩ := Option.isSome_iff_exists.mp (List.find?_isSome.mpr hentry)
    obtain ⟨v, -, rfl⟩ := List.mem_map.mp (List.mem_of_find?_eq_some hfind)
    exact ⟨_, hfind, rfl⟩

/-- The conversions of the list of flows, which names no share. -/
def listScalars : Conversions ℝ := plainScalars { encode := fun _ => "", decode := fun _ => none }

theorem agree_listScalars : TrainingInput.Agree listScalars where
  string text := rfl
  uint16 n := by
    have hread := decode_decimal UInt16.toNat UInt16.ofNat n.toNat_lt
    rwa [UInt16.ofNat_toNat] at hread

/-- The answer to the datagrams of `datagramCapture`, as the script gets it. -/
def datagramAnswer : IpPacket :=
  { src := 0x0200000a, dst := 0x0100000a, p := 17, payload := [0, 53, 0x04, 0x1d, 0, 9, 0, 0, 1] }

theorem datagramAnswer_labelled :
    ∃ root us final m,
      outputYaml listScalars "first.pcap" "DNS" [datagramAnswer] = some root ∧
      root = TrainingInput.listing listScalars "first.pcap" "DNS" us ∧
      TrainingInput.read listScalars datagramDatabase.toProtocolModelDb root =
        some [TrainingInput.listed "first.pcap" "DNS" us] ∧
      (Run.start datagramDatabase).processFiles datagramSetup (datagramMachine ℝ) (fun _ => some "")
        [TrainingInput.listed "first.pcap" "DNS" us] = some final ∧
      Alone datagramSetup 0 datagramCapture.handed m ∧
      final.updater.database =
        m.reported.foldl (fun file flow => file.train ("DNS", flow.attributeMeters))
          datagramDatabase := by
  have hsees : ∀ p ∈ datagramCapture.handed,
      ∃ t, t.sameFlow p.tuple = true ∧ Sees [datagramAnswer] t := by
    have htuples : ∀ t ∈ datagramCapture.handed.map IPv4Packet.tuple,
        t = ⟨0x0100000a, 1053, 0x0200000a, 53, ipprotoUdp⟩ := by
      decide +kernel
    intro p hp
    refine ⟨⟨0x0200000a, 53, 0x0100000a, 1053, ipprotoUdp⟩, ?_, datagramAnswer,
      List.mem_singleton_self _, rfl, rfl⟩
    rw [htuples p.tuple (List.mem_map_of_mem hp)]
    decide
  have hcapture : ((fun _ => some "" : FileSystem) "first.pcap").bind (datagramMachine ℝ).capture =
      some datagramCapture := rfl
  obtain ⟨root, hroot⟩ : ∃ root,
      outputYaml listScalars "first.pcap" "DNS" [datagramAnswer] = some root := ⟨_, rfl⟩
  have hlabel : (datagramDatabase.toProtocolModelDb.find "DNS").isSome = true := rfl
  obtain ⟨us, final, m, hrun⟩ := labelled_all (S := datagramSetup) rfl rfl (fun _ => some "")
    (Run.walks_tableKeys datagramSetup) agree_listScalars rfl hlabel hcapture hsees hroot
  exact ⟨root, us, final, m, hroot, hrun⟩

end Training

end Vsid
