import PowerApi.CpuService
import PowerApi.Crc

/-!
# The check value of a file (`utils.c`)

`Crc32` goes through a buffer byte by byte with a table; `GetCrc32Val` is the check value
of a buffer, `GetFileCrc32Val` that of a file, which it reads piece by piece.
`crc32_is_bitwise` compares both with the division bit by bit.
-/

namespace PowerApi

/-- `CRC_FACTOR`. -/
def crcFactor : UInt32 := 0xFFFFFFFF

/-- `CRC_FILE_BUF_LEN`. -/
def crcFileBufLen : ℕ := 102400

/-- `FAILED`. -/
def failed : Int := -1

/-- `g_crcTable`. -/
def crcTable : List UInt32 :=
  [0x00000000, 0x77073096, 0xEE0E612C, 0x990951BA, 0x076DC419, 0x706AF48F, 0xE963A535, 0x9E6495A3,
    0x0EDB8832, 0x79DCB8A4, 0xE0D5E91E, 0x97D2D988, 0x09B64C2B, 0x7EB17CBD, 0xE7B82D07, 0x90BF1D91,
    0x1DB71064, 0x6AB020F2, 0xF3B97148, 0x84BE41DE, 0x1ADAD47D, 0x6DDDE4EB, 0xF4D4B551, 0x83D385C7,
    0x136C9856, 0x646BA8C0, 0xFD62F97A, 0x8A65C9EC, 0x14015C4F, 0x63066CD9, 0xFA0F3D63, 0x8D080DF5,
    0x3B6E20C8, 0x4C69105E, 0xD56041E4, 0xA2677172, 0x3C03E4D1, 0x4B04D447, 0xD20D85FD, 0xA50AB56B,
    0x35B5A8FA, 0x42B2986C, 0xDBBBC9D6, 0xACBCF940, 0x32D86CE3, 0x45DF5C75, 0xDCD60DCF, 0xABD13D59,
    0x26D930AC, 0x51DE003A, 0xC8D75180, 0xBFD06116, 0x21B4F4B5, 0x56B3C423, 0xCFBA9599, 0xB8BDA50F,
    0x2802B89E, 0x5F058808, 0xC60CD9B2, 0xB10BE924, 0x2F6F7C87, 0x58684C11, 0xC1611DAB, 0xB6662D3D,
    0x76DC4190, 0x01DB7106, 0x98D220BC, 0xEFD5102A, 0x71B18589, 0x06B6B51F, 0x9FBFE4A5, 0xE8B8D433,
    0x7807C9A2, 0x0F00F934, 0x9609A88E, 0xE10E9818, 0x7F6A0DBB, 0x086D3D2D, 0x91646C97, 0xE6635C01,
    0x6B6B51F4, 0x1C6C6162, 0x856530D8, 0xF262004E, 0x6C0695ED, 0x1B01A57B, 0x8208F4C1, 0xF50FC457,
    0x65B0D9C6, 0x12B7E950, 0x8BBEB8EA, 0xFCB9887C, 0x62DD1DDF, 0x15DA2D49, 0x8CD37CF3, 0xFBD44C65,
    0x4DB26158, 0x3AB551CE, 0xA3BC0074, 0xD4BB30E2, 0x4ADFA541, 0x3DD895D7, 0xA4D1C46D, 0xD3D6F4FB,
    0x4369E96A, 0x346ED9FC, 0xAD678846, 0xDA60B8D0, 0x44042D73, 0x33031DE5, 0xAA0A4C5F, 0xDD0D7CC9,
    0x5005713C, 0x270241AA, 0xBE0B1010, 0xC90C2086, 0x5768B525, 0x206F85B3, 0xB966D409, 0xCE61E49F,
    0x5EDEF90E, 0x29D9C998, 0xB0D09822, 0xC7D7A8B4, 0x59B33D17, 0x2EB40D81, 0xB7BD5C3B, 0xC0BA6CAD,
    0xEDB88320, 0x9ABFB3B6, 0x03B6E20C, 0x74B1D29A, 0xEAD54739, 0x9DD277AF, 0x04DB2615, 0x73DC1683,
    0xE3630B12, 0x94643B84, 0x0D6D6A3E, 0x7A6A5AA8, 0xE40ECF0B, 0x9309FF9D, 0x0A00AE27, 0x7D079EB1,
    0xF00F9344, 0x8708A3D2, 0x1E01F268, 0x6906C2FE, 0xF762575D, 0x806567CB, 0x196C3671, 0x6E6B06E7,
    0xFED41B76, 0x89D32BE0, 0x10DA7A5A, 0x67DD4ACC, 0xF9B9DF6F, 0x8EBEEFF9, 0x17B7BE43, 0x60B08ED5,
    0xD6D6A3E8, 0xA1D1937E, 0x38D8C2C4, 0x4FDFF252, 0xD1BB67F1, 0xA6BC5767, 0x3FB506DD, 0x48B2364B,
    0xD80D2BDA, 0xAF0A1B4C, 0x36034AF6, 0x41047A60, 0xDF60EFC3, 0xA867DF55, 0x316E8EEF, 0x4669BE79,
    0xCB61B38C, 0xBC66831A, 0x256FD2A0, 0x5268E236, 0xCC0C7795, 0xBB0B4703, 0x220216B9, 0x5505262F,
    0xC5BA3BBE, 0xB2BD0B28, 0x2BB45A92, 0x5CB36A04, 0xC2D7FFA7, 0xB5D0CF31, 0x2CD99E8B, 0x5BDEAE1D,
    0x9B64C2B0, 0xEC63F226, 0x756AA39C, 0x026D930A, 0x9C0906A9, 0xEB0E363F, 0x72076785, 0x05005713,
    0x95BF4A82, 0xE2B87A14, 0x7BB12BAE, 0x0CB61B38, 0x92D28E9B, 0xE5D5BE0D, 0x7CDCEFB7, 0x0BDBDF21,
    0x86D3D2D4, 0xF1D4E242, 0x68DDB3F8, 0x1FDA836E, 0x81BE16CD, 0xF6B9265B, 0x6FB077E1, 0x18B74777,
    0x88085AE6, 0xFF0F6A70, 0x66063BCA, 0x11010B5C, 0x8F659EFF, 0xF862AE69, 0x616BFFD3, 0x166CCF45,
    0xA00AE278, 0xD70DD2EE, 0x4E048354, 0x3903B3C2, 0xA7672661, 0xD06016F7, 0x4969474D, 0x3E6E77DB,
    0xAED16A4A, 0xD9D65ADC, 0x40DF0B66, 0x37D83BF0, 0xA9BCAE53, 0xDEBB9EC5, 0x47B2CF7F, 0x30B5FFE9,
    0xBDBDF21C, 0xCABAC28A, 0x53B39330, 0x24B4A3A6, 0xBAD03605, 0xCDD70693, 0x54DE5729, 0x23D967BF,
    0xB3667A2E, 0xC4614AB8, 0x5D681B02, 0x2A6F2B94, 0xB40BBE37, 0xC30C8EA1, 0x5A05DF1B, 0x2D02EF8D]

/-- The body of the loop of `Crc32`. -/
def crc32Byte (crc : UInt32) (b : UInt8) : UInt32 :=
  crcTable.getD ((crc ^^^ b.toUInt32) &&& 0xff).toNat 0 ^^^ (crc >>> 8)

/-- The loop of `Crc32`, with some bytes still to go. -/
def crc32Loop : ℕ → UInt32 → Bytes → Except Fault UInt32
  | 0, crc, _ => return crc
  | _ + 1, _, [] => throw .overrun
  | n + 1, crc, b :: buffer => crc32Loop n (crc32Byte crc b) buffer

/-- `Crc32`. -/
def crc32 (crc : UInt32) (buff : Bytes) (size : UInt32) : Except Fault UInt32 :=
  crc32Loop size.toNat crc buff

/-- `GetCrc32Val`. -/
def getCrc32Val (buffer : Bytes) (bufSize : UInt32) : Except Fault UInt32 := do
  let crc ← crc32 crcFactor buffer bufSize
  return crc ^^^ crcFactor

/-- The loop of `GetFileCrc32Val`, for what `read` gives call by call: some bytes, or `none`
where it fails. -/
def fileCrcLoop : List (Option Bytes) → UInt32 → Except Fault (Option UInt32)
  | [], crc => return some crc
  | none :: _, _ => return none
  | some buf :: reads, crc =>
    if buf = [] then return some crc
    else do
      let crc ← crc32 crc buf (UInt32.ofNat buf.length)
      fileCrcLoop reads crc

/-- `GetFileCrc32Val`: its code and `*fileCrc`. There are no reads where there is no name or
`open` fails. -/
def getFileCrc32Val (reads : Option (List (Option Bytes))) (fileCrc : Option UInt32) :
    Except Fault (Int × Option UInt32) := do
  match fileCrc, reads with
  | none, _ => return (failed, none)
  | some _, none => return (failed, fileCrc)
  | some crc, some reads =>
    match ← fileCrcLoop reads crc with
    | none => return (failed, fileCrc)
    | some crc => return (RtnCode.success.code, some (crc ^^^ crcFactor))

/-! ## The check value, bit by bit -/

/-- CRC-32, with the reflected polynomial. -/
def bitwiseCrc32 (bytes : Bytes) : UInt32 :=
  ⟨Crc.checksum 0xEDB88320#32 0xFFFFFFFF#32 0xFFFFFFFF#32 (bytes.map UInt8.toBitVec)⟩

/-- A way in which `read` can take a file to pieces. -/
structure ReadAs (content : Bytes) (reads : List Bytes) : Prop where
  flatten : reads.flatten = content
  nonempty : ∀ buf ∈ reads, buf ≠ []
  fits : ∀ buf ∈ reads, buf.length ≤ crcFileBufLen

/-- Every entry of the table is the division of its index. -/
theorem crcTable_eq (b : BitVec 8) :
    (crcTable.getD b.toNat 0).toBitVec = Crc.steps 0xEDB88320#32 8 (b.setWidth 32) := by
  have hall : ∀ i < 256, (crcTable.getD i 0).toBitVec =
      Crc.steps 0xEDB88320#32 8 ((BitVec.ofNat 8 i).setWidth 32) := by decide +kernel
  have h := hall b.toNat b.isLt
  rwa [BitVec.ofNat_toNat, BitVec.setWidth_eq] at h

/-- The index into the table is the low byte of the sum. -/
theorem crcIndex_eq (crc : UInt32) (b : UInt8) :
    ((crc ^^^ b.toUInt32) &&& 0xff).toNat = (crc.toBitVec.setWidth 8 ^^^ b.toBitVec).toNat := by
  have hmask : ((crc ^^^ b.toUInt32) &&& 0xff).toNat = (crc ^^^ b.toUInt32).toNat % 2 ^ 8 := by
    rw [UInt32.toNat_and]
    exact Nat.and_two_pow_sub_one_eq_mod _ 8
  rw [hmask, UInt32.toNat_xor, BitVec.toNat_xor, BitVec.toNat_setWidth, Nat.xor_mod_two_pow]
  congr 1
  exact Nat.mod_eq_of_lt b.toBitVec.isLt

/-- A turn of the loop is eight steps of the division. -/
theorem crc32Byte_eq (crc : UInt32) (b : UInt8) :
    (crc32Byte crc b).toBitVec = Crc.feed 0xEDB88320#32 crc.toBitVec b.toBitVec := by
  rw [Crc.feed_eq_table (by decide), ← crcTable_eq, crc32Byte, UInt32.toBitVec_xor, crcIndex_eq]
  rfl

theorem foldl_crc32Byte (crc : UInt32) (bytes : Bytes) :
    (bytes.foldl crc32Byte crc).toBitVec =
      (bytes.map UInt8.toBitVec).foldl (Crc.feed 0xEDB88320#32) crc.toBitVec := by
  induction bytes generalizing crc with
  | nil => rfl
  | cons b bytes ih => rw [List.foldl_cons, ih, crc32Byte_eq, List.map_cons, List.foldl_cons]

theorem crc32Loop_eq {n : ℕ} {buffer : Bytes} (h : n ≤ buffer.length) (crc : UInt32) :
    crc32Loop n crc buffer = .ok ((buffer.take n).foldl crc32Byte crc) := by
  induction n generalizing crc buffer with
  | zero => rfl
  | succ n ih =>
    obtain ⟨b, buffer, rfl⟩ := List.exists_cons_of_length_pos (Nat.zero_lt_of_lt h)
    rw [crc32Loop, ih (Nat.le_of_succ_le_succ h), List.take_succ_cons, List.foldl_cons]

/-- `Crc32` of a whole buffer. -/
theorem crc32_eq {buff : Bytes} {size : UInt32} (h : size.toNat ≤ buff.length) (crc : UInt32) :
    crc32 crc buff size = .ok ((buff.take size.toNat).foldl crc32Byte crc) := crc32Loop_eq h crc

/-- The table and the division make the same check value. -/
theorem bitwiseCrc32_eq (bytes : Bytes) :
    bitwiseCrc32 bytes = bytes.foldl crc32Byte crcFactor ^^^ crcFactor := by
  apply UInt32.toBitVec_inj.mp
  rw [UInt32.toBitVec_xor, foldl_crc32Byte]
  rfl

theorem getCrc32Val_eq {buffer : Bytes} {bufSize : UInt32} (h : bufSize.toNat ≤ buffer.length) :
    getCrc32Val buffer bufSize = .ok (bitwiseCrc32 (buffer.take bufSize.toNat)) := by
  rw [getCrc32Val, crc32_eq h, ok_bind, bitwiseCrc32_eq]
  rfl

/-- The pieces of a file go into the register one after the other. -/
theorem fileCrcLoop_eq {reads : List Bytes} (hne : ∀ buf ∈ reads, buf ≠ [])
    (hfits : ∀ buf ∈ reads, buf.length ≤ crcFileBufLen) (crc : UInt32) :
    fileCrcLoop (reads.map some) crc = .ok (some (reads.flatten.foldl crc32Byte crc)) := by
  induction reads generalizing crc with
  | nil => rfl
  | cons buf reads ih =>
    obtain ⟨hbuf, hne⟩ := List.forall_mem_cons.mp hne
    obtain ⟨hlen, hfits⟩ := List.forall_mem_cons.mp hfits
    have hsize : (UInt32.ofNat buf.length).toNat = buf.length :=
      UInt32.toNat_ofNat_of_lt' (hlen.trans_lt (by decide))
    rw [List.map_cons, fileCrcLoop, if_neg hbuf, crc32_eq hsize.le, ok_bind, ih hne hfits, hsize,
      List.take_length, List.flatten_cons, List.foldl_append]

theorem getFileCrc32Val_eq {content : Bytes} {reads : List Bytes} (h : ReadAs content reads) :
    getFileCrc32Val (some (reads.map some)) (some crcFactor) =
      .ok (RtnCode.success.code, some (bitwiseCrc32 content)) := by
  rw [getFileCrc32Val, fileCrcLoop_eq h.nonempty h.fits, ok_bind, h.flatten, bitwiseCrc32_eq]
  rfl

/-- **The check value is CRC-32**, of a buffer of any size that a call can name and of a file of
any size, however it is read; so the two agree. -/
theorem crc32_is_bitwise {buffer : Bytes} {bufSize : UInt32} (hsize : bufSize.toNat ≤ buffer.length)
    {content : Bytes} {reads : List Bytes} (hreads : ReadAs content reads) :
    getCrc32Val buffer bufSize = .ok (bitwiseCrc32 (buffer.take bufSize.toNat)) ∧
      getFileCrc32Val (some (reads.map some)) (some crcFactor) =
        .ok (RtnCode.success.code, some (bitwiseCrc32 content)) ∧
      ∀ size : UInt32, size.toNat = content.length →
        ∃ crc, getCrc32Val content size = .ok crc ∧
          getFileCrc32Val (some (reads.map some)) (some crcFactor) =
            .ok (RtnCode.success.code, some crc) := by
  refine ⟨getCrc32Val_eq hsize, getFileCrc32Val_eq hreads, fun size hlen => ?_⟩
  refine ⟨bitwiseCrc32 content, ?_, getFileCrc32Val_eq hreads⟩
  rw [getCrc32Val_eq hlen.le, hlen, List.take_length]

theorem crc32_is_bitwise_check :
    getCrc32Val (text "123456789") 9 = .ok 0xCBF43926 ∧
      getFileCrc32Val (some [some (text "1234"), some (text "56789")]) (some crcFactor) =
        .ok (0, some 0xCBF43926) := by
  have hvalue : bitwiseCrc32 (text "123456789") = 0xCBF43926 := by decide +kernel
  have hreads : ReadAs (text "123456789") [text "1234", text "56789"] :=
    ⟨by decide +kernel, by decide +kernel, by decide +kernel⟩
  have hlen : (9 : UInt32).toNat = (text "123456789").length := by decide +kernel
  obtain ⟨hbuf, hfile, -⟩ := crc32_is_bitwise hlen.le hreads
  rw [hlen, List.take_length, hvalue] at hbuf
  rw [hvalue] at hfile
  exact ⟨hbuf, hfile⟩

end PowerApi
