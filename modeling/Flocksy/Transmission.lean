import Flocksy.Relays

/-!
# The way of a file's data

The dispatcher sends a file in packages, the publisher and the subscriber put another
header before each message, and the router reads offset, size, the flag for more and the
contents. The dispatcher writes the header that the publisher cuts off before the first
package only, and adds the sizes up. A file that fits one package arrives as it is; from
the second package on the records are shifted.
-/

namespace Flocksy

open ByteStream Fsm

def filePackages (offset : ℕ) (content : Bytes) : List FilePackage :=
  if content.length ≤ maximumFilePackageSize then [⟨offset, content.length, false, content⟩]
  else
    ⟨offset, maximumFilePackageSize, true, content.take maximumFilePackageSize⟩ ::
      filePackages (offset + maximumFilePackageSize) (content.drop maximumFilePackageSize)
termination_by content.length
decreasing_by
  simp only [List.length_drop, maximumFilePackageSize] at *
  omega

def writeAt (disk : Bytes) (offset : ℕ) (data : Bytes) : Bytes :=
  padTo offset disk ++ data ++ disk.drop (offset + data.length)

/-- `File::storeFileData` on a file whose record holds the size. -/
def storeFileData (size : ℕ) (disk : Bytes) (package : FilePackage) : Bytes :=
  if size ≤ maximumFilePackageSize ∧ size ≤ package.dataSize then
    writeAt disk package.offset (padTo size package.contents)
  else if package.dataSize < maximumFilePackageSize then
    writeAt disk package.offset (padTo package.dataSize package.contents)
  else writeAt disk package.offset (padTo maximumFilePackageSize package.contents)

theorem writeAt_append {before after data : Bytes} :
    writeAt (before ++ after) before.length data = before ++ data ++ after.drop data.length := by
  have hbefore : padTo before.length (before ++ after) = before := by
    rw [padTo, List.append_assoc, List.take_left]
  rw [writeAt, hbefore, ← List.drop_drop, List.drop_left]

theorem storeFileData_eq {size : ℕ} {disk : Bytes} {package : FilePackage}
    (hlen : package.contents.length = package.dataSize)
    (hmax : package.dataSize ≤ maximumFilePackageSize) (hle : package.dataSize ≤ size) :
    storeFileData size disk package = writeAt disk package.offset package.contents := by
  unfold storeFileData
  split_ifs with hwhole hshort
  · have heq : package.dataSize = size := by omega
    rw [padTo_of_length (hlen.trans heq)]
  · rw [padTo_of_length hlen]
  · rw [padTo_of_length (by omega)]

theorem store_filePackages {before content after : Bytes} {size offset : ℕ}
    (hoffset : before.length = offset) (hsize : size = offset + content.length)
    (hafter : after.length = content.length) :
    (filePackages offset content).foldl (storeFileData size) (before ++ after) =
      before ++ content := by
  fun_induction filePackages offset content generalizing before after with
  | case1 offset content hlen =>
    rw [List.foldl_cons, List.foldl_nil, storeFileData_eq rfl hlen (by simp only; omega)]
    subst hoffset
    rw [writeAt_append, ← hafter, List.drop_length, List.append_nil]
  | case2 offset content hlen ih =>
    have htake : (content.take maximumFilePackageSize).length = maximumFilePackageSize := by
      rw [List.length_take]
      omega
    rw [List.foldl_cons, storeFileData_eq htake le_rfl (by simp only; omega)]
    subst hoffset
    rw [writeAt_append, htake]
    have hdrop := List.length_drop (i := maximumFilePackageSize) (l := content)
    rw [ih (by simp [htake]) (by omega) (by simp [hafter]), List.append_assoc,
      List.take_append_drop]

theorem store_filePackages_all {content disk : Bytes} (hdisk : disk.length = content.length) :
    (filePackages 0 content).foldl (storeFileData content.length) disk = content := by
  have hstored : (filePackages 0 content).foldl (storeFileData content.length) ([] ++ disk) =
      [] ++ content := store_filePackages rfl (by simp) hdisk
  exact hstored

/-- `File::readFileData` into a buffer of a package: what it delivers, and `more`. -/
def readFileData (content : Bytes) (size offset : ℕ) : Bytes × Bool :=
  let count := if size ≤ maximumFilePackageSize then size else maximumFilePackageSize
  let got := (content.drop offset).take count
  (got, offset + got.length < size)

def packageMessage (header : Bytes) (offset dataSize : ℕ) (more : Bool) (contents : Bytes) : Bytes :=
  fillTo (maximumFilePackageSize + 22)
    (header ++ (toBigEndian 8 offset ++ (toBigEndian 8 dataSize ++ ([more.toUInt8] ++ contents))))

/-- The `while (*more)` loop of `Dispatcher::run`. The memory of a turn is what follows the
bytes that were read in the buffer of the package. -/
def sendPackages (content : Bytes) (size : ℕ) (memory : ℕ → Bytes) (header : Bytes)
    (offset dataSize : ℕ) : List Bytes :=
  let read := readFileData content size offset
  let dataSize := dataSize + read.1.length
  packageMessage header offset dataSize read.2 (padTo dataSize (read.1 ++ memory offset)) ::
    if read.2 = true then
      sendPackages content size memory [] (offset + maximumFilePackageSize) dataSize
    else []
termination_by size - offset
decreasing_by
  have hmore : offset + (readFileData content size offset).1.length < size := by
    simpa [readFileData] using ‹(readFileData content size offset).2 = true›
  simp only [maximumFilePackageSize]
  omega

def routerTurn (old : ℤ × ℤ) (text : Bytes) : Option ((ℤ × ℤ) × Option FilePackage) :=
  let (msgType, msgSignal, s) := readSignal old text
  if interrupts msgType msgSignal then none
  else
    some ((msgType, msgSignal),
      if statusOfInt msgSignal = .s200 then some (readFilePackage s).1 else none)

def received (content : Bytes) (memory : ℕ → Bytes) (uid : Hash) (pub sub router : ℤ × ℤ) :
    List (Option FilePackage) :=
  relay routerTurn router <| relay (subscriberTurn uid) sub <| relay publisherTurn pub <|
    sendPackages content content.length memory (statusHeader .s200) 0 0

/-- The packages of the content arrive, and storing them rebuilds it. -/
def Transmits (content : Bytes) (memory : ℕ → Bytes) (uid : Hash) (pub sub router : ℤ × ℤ) :
    Prop :=
  received content memory uid pub sub router = (filePackages 0 content).map some ∧
    ∀ disk : Bytes, disk.length = content.length →
      ((received content memory uid pub sub router).filterMap id).foldl
        (storeFileData content.length) disk = content

theorem packageMessage_eq (header : Bytes) (offset dataSize : ℕ) (more : Bool) (contents : Bytes) :
    ∃ pad, packageMessage header offset dataSize more contents =
      header ++ (toBigEndian 8 offset ++ (toBigEndian 8 dataSize ++
        ([more.toUInt8] ++ (contents ++ pad)))) := by
  refine ⟨List.replicate (maximumFilePackageSize + 22 - (header ++ (toBigEndian 8 offset ++
    (toBigEndian 8 dataSize ++ ([more.toUInt8] ++ contents)))).length) space, ?_⟩
  simp only [packageMessage, fillTo, List.append_assoc]

theorem le_length_packageMessage (header : Bytes) (offset dataSize : ℕ) (more : Bool)
    (contents : Bytes) :
    maximumFilePackageSize + 22 ≤ (packageMessage header offset dataSize more contents).length := by
  rw [packageMessage, fillTo, List.length_append, List.length_replicate]
  omega

/-- A message without a header keeps the status of the message before and loses five bytes. -/
theorem publisherTurn_bare {old : ℤ × ℤ} {n : ℕ} (hold : old.2 = n) (hn : n ≠ siglifeInterrupt)
    {text : Bytes} (hhead : text.head? = some 0) (hlen : minimumHbWidth + 5 ≤ text.length) :
    publisherTurn old text = some ((0, (n : ℤ)), decimal n ++ text.drop 5) := by
  cases text with
  | nil => simp at hhead
  | cons b bs =>
    obtain rfl := Option.some.inj hhead
    have hfirst : (Stream.ofBytes (0 :: bs)).extractInt old.1 = _ :=
      Stream.extractInt_noNumber old.1 (by decide) (by decide) (by decide) []
    have hsecond : (readSignal old (0 :: bs)).2.1 = n := by
      simp only [readSignal, hfirst]
      rw [Stream.extractInt_of_fail old.2 rfl, hold]
    rcases hread : readSignal old (0 :: bs) with ⟨msgType, msgSignal, stream⟩
    have htype : msgType = 0 :=
      (congrArg Prod.fst hread).symm.trans (congrArg Prod.fst hfirst)
    rw [hread] at hsecond
    subst htype hsecond
    have hsubstr : substr 5 (0 :: bs) = some ((0 :: bs).drop 5) := by
      rw [substr, if_pos (by omega)]
    have hfill : fillTo minimumHbWidth (decimal n ++ (0 :: bs).drop 5) =
        decimal n ++ (0 :: bs).drop 5 := by
      refine fillTo_of_le ?_
      rw [List.length_append, List.length_drop]
      omega
    have hgo : interrupts 0 n = false := by
      simpa [interrupts, sigtypeLife] using hn
    simp only [publisherTurn, hread, hgo, hsubstr, Option.map_some, decimalInt_natCast, hfill]
    rfl

theorem routerTurn_package (old : ℤ × ℤ) {uid : Hash} (huid : uid.Undigit) (body : Bytes) :
    routerTurn old (subscriberMessage 200 uid body) = some ((2, 200),
      some (readFilePackage (Stream.cursor (signalPrefix sigtypeSub 200) (uid.bytes ++ body))).1) := by
  have hread : readSignal old (signalPrefix sigtypeSub 200 ++ (uid.bytes ++ body)) = _ :=
    readSignal_prefix old (by decide) (by decide) (by simp [uid.bytes_ne_nil])
      (by rwa [uid.head?_append])
  have hgo : interrupts (sigtypeSub : ℤ) ((200 : ℕ) : ℤ) = false := by decide
  have hdata : statusOfInt ((200 : ℕ) : ℤ) = .s200 := by decide
  simp only [routerTurn, subscriberMessage, hread, hgo, hdata]
  rfl

theorem readFilePackage_cursor {offset dataSize : ℕ} {more : Bool} {contents : Bytes}
    (hoffset : offset < 256 ^ 8) (hsize : dataSize < 256 ^ 8) (hlen : contents.length = dataSize)
    (before : Bytes) (uid : Hash) (pad : Bytes) :
    (readFilePackage (Stream.cursor before (uid.bytes ++ (toBigEndian 8 offset ++
      (toBigEndian 8 dataSize ++ ([more.toUInt8] ++ (contents ++ pad))))))).1 =
        ⟨offset, dataSize, more, contents⟩ := by
  have hmore : decide (ofBigEndian (padTo 1 [more.toUInt8]) ≠ 0) = more := by
    cases more <;> decide
  simp only [readFilePackage]
  rw [Stream.seekCur_cursor uid.length_eq, Stream.read_cursor (toBigEndian_length 8 offset)]
  simp only
  rw [Stream.read_cursor (toBigEndian_length 8 dataSize)]
  simp only
  rw [Stream.read_cursor (show [more.toUInt8].length = 1 from rfl)]
  simp only
  rw [padTo_of_length (toBigEndian_length 8 offset), padTo_of_length (toBigEndian_length 8 dataSize),
    ofBigEndian_toBigEndian, ofBigEndian_toBigEndian, Nat.mod_eq_of_lt hoffset,
    Nat.mod_eq_of_lt hsize, Stream.read_cursor hlen, hmore]

theorem readFilePackage_offset {offset : Bytes} (hlen : offset.length = 8) (before : Bytes)
    (uid : Hash) (after : Bytes) :
    (readFilePackage (Stream.cursor before (uid.bytes ++ (offset ++ after)))).1.offset =
      ofBigEndian offset := by
  simp only [readFilePackage]
  rw [Stream.seekCur_cursor uid.length_eq, Stream.read_cursor hlen, padTo_of_length hlen]

theorem toBigEndian_small {n : ℕ} (h : n < 256 ^ 3) :
    toBigEndian 8 n = List.replicate 5 0 ++ toBigEndian 3 n := by
  have hdiv : ∀ k, 3 ≤ k → n / 256 ^ k = 0 := fun k hk =>
    Nat.div_eq_of_lt (lt_of_lt_of_le h (Nat.pow_le_pow_right (by decide) hk))
  simp only [toBigEndian, hdiv 7 (by decide), hdiv 6 (by decide), hdiv 5 (by decide),
    hdiv 4 (by decide), hdiv 3 (by decide)]
  rfl

theorem readFileData_short {content : Bytes} (h : content.length ≤ maximumFilePackageSize) :
    readFileData content content.length 0 = (content, false) := by
  simp [readFileData, h]

theorem readFileData_long {content : Bytes} (h : maximumFilePackageSize < content.length)
    (offset : ℕ) : readFileData content content.length offset =
      ((content.drop offset).take maximumFilePackageSize, decide (offset +
        ((content.drop offset).take maximumFilePackageSize).length < content.length)) := by
  simp only [readFileData, if_neg (not_le.2 h)]

theorem sendPackages_short {content : Bytes} (h : content.length ≤ maximumFilePackageSize)
    (memory : ℕ → Bytes) : sendPackages content content.length memory (statusHeader .s200) 0 0 =
      [packageMessage (statusHeader .s200) 0 content.length false content] := by
  have hbuffer : padTo content.length (content ++ memory 0) = content := by
    rw [padTo_of_le (by simp), List.take_left]
  rw [sendPackages, readFileData_short h]
  simp [hbuffer]

theorem sendPackages_long {content : Bytes} (h : maximumFilePackageSize < content.length)
    (memory : ℕ → Bytes) : ∃ more contents later,
      sendPackages content content.length memory (statusHeader .s200) 0 0 =
        packageMessage (statusHeader .s200) 0 maximumFilePackageSize true
          (content.take maximumFilePackageSize) ::
        packageMessage [] maximumFilePackageSize (min content.length (2 * maximumFilePackageSize))
          more contents :: later ∧
      contents.length = min content.length (2 * maximumFilePackageSize) ∧
      (content.length ≤ 2 * maximumFilePackageSize → later = []) := by
  have htake : (content.take maximumFilePackageSize).length = maximumFilePackageSize := by
    rw [List.length_take]
    omega
  have hbuffer : padTo maximumFilePackageSize (content.take maximumFilePackageSize ++ memory 0) =
      content.take maximumFilePackageSize := by
    rw [padTo_of_le (by simp [htake]), List.take_append_of_le_length htake.ge, List.take_take,
      min_self]
  have hsize : maximumFilePackageSize + ((content.drop maximumFilePackageSize).take
      maximumFilePackageSize).length = min content.length (2 * maximumFilePackageSize) := by
    rw [List.length_take, List.length_drop]
    omega
  have hlast : ¬ maximumFilePackageSize + ((content.drop maximumFilePackageSize).take
      maximumFilePackageSize).length < content.length ∨
      ¬ content.length ≤ 2 * maximumFilePackageSize := by
    omega
  rw [sendPackages, readFileData_long h, sendPackages, readFileData_long h]
  simp only [List.drop_zero, htake, zero_add, h, decide_true, if_true, hbuffer, hsize]
  refine ⟨_, _, _, rfl, padTo_length _ _, fun hle => ?_⟩
  rw [if_neg]
  simpa [← hsize] using hlast.resolve_right (not_not.2 hle)

theorem filePackages_offset (offset : ℕ) (content : Bytes) :
    (filePackages offset content).head?.map FilePackage.offset = some offset := by
  rw [filePackages]
  split_ifs <;> rfl

section Received

variable {content : Bytes} {memory : ℕ → Bytes} {uid : Hash} {pub sub router : ℤ × ℤ}
  (huid : uid.Undigit)
include huid

theorem received_first (offset dataSize : ℕ) (more : Bool) (contents : Bytes)
    (hoffset : offset < 256 ^ 3) (hsize : dataSize < 256 ^ 8) (hlen : contents.length = dataSize)
    (messages : List Bytes) :
    ∃ pub' sub' router', relay routerTurn router (relay (subscriberTurn uid) sub
      (relay publisherTurn pub
        (packageMessage (statusHeader .s200) offset dataSize more contents :: messages))) =
      some ⟨offset, dataSize, more, contents⟩ :: relay routerTurn router'
        (relay (subscriberTurn uid) sub' (relay publisherTurn pub' messages)) ∧ pub'.2 = 200 := by
  obtain ⟨pad, hpackage⟩ := packageMessage_eq (statusHeader .s200) offset dataSize more contents
  have hlength := le_length_packageMessage (statusHeader .s200) offset dataSize more contents
  have hheader : (statusHeader .s200).length = 5 := by decide
  rw [hpackage, List.length_append, hheader] at hlength
  have hhead : ∀ b ∈ (toBigEndian 8 offset ++ (toBigEndian 8 dataSize ++
      ([more.toUInt8] ++ (contents ++ pad)))).head?, isDigit b = false := by
    rw [toBigEndian_small hoffset]
    intro b hb
    obtain rfl := Option.some.inj hb
    decide
  have hne : toBigEndian 8 offset ++ (toBigEndian 8 dataSize ++
      ([more.toUInt8] ++ (contents ++ pad))) ≠ [] := by simp
  have hlong : minimumHbWidth ≤ (toBigEndian 8 offset ++ (toBigEndian 8 dataSize ++
      ([more.toUInt8] ++ (contents ++ pad)))).length := by
    simp only [minimumHbWidth, maximumFilePackageSize] at *
    omega
  have hturn : publisherTurn pub (statusHeader .s200 ++ _) = _ :=
    publisherTurn_headed pub (n := 200) (by decide) (by decide) hne hhead
  rw [fillTo_of_le (by rw [List.length_append]; omega)] at hturn
  refine ⟨(1, 200), (200, 200), (2, 200), ?_, rfl⟩
  rw [hpackage, relay_cons hturn,
    relay_cons (subscriberTurn_headed sub uid (n := 200) (by decide) (by decide) hne hhead),
    relay_cons (routerTurn_package router huid _),
    readFilePackage_cursor (lt_of_lt_of_le hoffset (by norm_num)) hsize hlen]
  rfl

/-- The offset of a package without a header is read in the wrong place. -/
theorem received_bare (hpub : pub.2 = 200) {dataSize : ℕ} (hsize : dataSize < 256 ^ 3) {more : Bool}
    {contents : Bytes} (messages : List Bytes) :
    ∃ package after, relay routerTurn router (relay (subscriberTurn uid) sub
      (relay publisherTurn pub
        (packageMessage [] maximumFilePackageSize dataSize more contents :: messages))) =
      some package :: after ∧ package.offset = 2 ^ 52 := by
  obtain ⟨pad, hpackage⟩ := packageMessage_eq [] maximumFilePackageSize dataSize more contents
  have hlength := le_length_packageMessage [] maximumFilePackageSize dataSize more contents
  have hoffset : toBigEndian 8 maximumFilePackageSize = [0, 0, 0, 0, 0, 0, 16, 0] := by decide
  have htext : packageMessage [] maximumFilePackageSize dataSize more contents =
      [0, 0, 0, 0, 0] ++ ([0, 16, 0, 0, 0, 0, 0, 0] ++
        (toBigEndian 3 dataSize ++ ([more.toUInt8] ++ (contents ++ pad)))) := by
    rw [hpackage, hoffset, toBigEndian_small hsize]
    rfl
  have hturn := publisherTurn_bare (n := 200) hpub (by decide) (by rw [htext]; rfl)
    (le_trans (by decide) hlength)
  have hdrop : (packageMessage [] maximumFilePackageSize dataSize more contents).drop 5 =
      [0, 16, 0, 0, 0, 0, 0, 0] ++
        (toBigEndian 3 dataSize ++ ([more.toUInt8] ++ (contents ++ pad))) := by
    rw [htext]
    rfl
  rw [hdrop] at hturn
  have hhead : ∀ b ∈ ([0, 16, 0, 0, 0, 0, 0, 0] ++
      (toBigEndian 3 dataSize ++ ([more.toUInt8] ++ (contents ++ pad)))).head?,
      isDigit b = false := by
    intro b hb
    obtain rfl := Option.some.inj hb
    decide
  rw [relay_cons hturn, relay_cons (subscriberTurn_headed sub uid (n := 200)
      (by decide) (by decide) (by simp) hhead),
    relay_cons (routerTurn_package router huid _)]
  refine ⟨_, _, rfl, ?_⟩
  rw [readFilePackage_offset (by decide)]
  decide

theorem received_of_short (h : content.length ≤ maximumFilePackageSize) :
    received content memory uid pub sub router = (filePackages 0 content).map some := by
  obtain ⟨pub', sub', router', hrelay, -⟩ := received_first huid 0 content.length false content
    (by decide) (lt_of_le_of_lt h (by decide)) rfl []
  rw [received, sendPackages_short h, hrelay, filePackages, if_pos h]
  rfl

theorem not_received_of_long (h : maximumFilePackageSize < content.length) :
    received content memory uid pub sub router ≠ (filePackages 0 content).map some := by
  have htake : (content.take maximumFilePackageSize).length = maximumFilePackageSize := by
    rw [List.length_take]
    omega
  obtain ⟨more, contents, later, hmessages, -, -⟩ := sendPackages_long h memory
  have hsize : min content.length (2 * maximumFilePackageSize) < 256 ^ 3 :=
    lt_of_le_of_lt (min_le_right _ _) (by decide)
  obtain ⟨pub', sub', router', hrelay, hpub⟩ := received_first huid 0 maximumFilePackageSize true
    (content.take maximumFilePackageSize) (by decide) (by decide) htake
    (packageMessage [] maximumFilePackageSize (min content.length (2 * maximumFilePackageSize))
      more contents :: later)
  obtain ⟨package, after, hbare, hshift⟩ := received_bare huid hpub hsize later
  rw [received, hmessages, hrelay, hbare, filePackages, if_neg (not_le.2 h)]
  intro heq
  have htail := (List.cons.inj heq).2
  have hoffset := filePackages_offset (0 + maximumFilePackageSize)
    (content.drop maximumFilePackageSize)
  cases hpackages : filePackages (0 + maximumFilePackageSize)
      (content.drop maximumFilePackageSize) with
  | nil =>
    rw [hpackages] at hoffset
    simp at hoffset
  | cons first rest =>
    rw [hpackages] at hoffset htail
    have hfirst : package = first := Option.some.inj (List.cons.inj htail).1
    have hcut : first.offset = 0 + maximumFilePackageSize := Option.some.inj hoffset
    rw [← hfirst, hshift] at hcut
    exact absurd hcut (by decide)

/-- The dispatcher announces the status of a file's data in front of the first package only:
exactly the contents that fit one package arrive as they are. -/
theorem transmits_iff :
    Transmits content memory uid pub sub router ↔ content.length ≤ maximumFilePackageSize := by
  constructor
  · intro htransmits
    by_contra hlong
    exact not_received_of_long huid (not_le.1 hlong) htransmits.1
  · intro hshort
    have hreceived : received content memory uid pub sub router =
        (filePackages 0 content).map some := received_of_short huid hshort
    refine ⟨hreceived, fun disk hdisk => ?_⟩
    rw [hreceived, List.filterMap_map]
    have hid : (id ∘ some : FilePackage → Option FilePackage) = some := rfl
    rw [hid, List.filterMap_some]
    exact store_filePackages_all hdisk

end Received

/-- A full package, with the buffer's old bytes behind it. -/
theorem transmits_package :
    Transmits (List.replicate 4096 255) (fun _ => List.replicate 4096 49) (.fill 65) (0, 0) (0, 0)
      (0, 0) :=
  (transmits_iff (Hash.undigit_fill (by decide))).2 (by rw [List.length_replicate]; decide)

/-- A content of one byte more than a package. -/
theorem not_transmits_two_packages :
    ¬ Transmits (List.replicate 4097 0) (fun _ => []) (.fill 65) (0, 0) (0, 0) (0, 0) :=
  fun htransmits =>
    not_received_of_long (Hash.undigit_fill (by decide)) (by rw [List.length_replicate]; decide)
      htransmits.1

end Flocksy
