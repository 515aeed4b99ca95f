import MobileWebcamBridge.Lib.Bytes
import MobileWebcamBridge.Lib.Reader
import MobileWebcamBridge.Lib.Unicode
import MobileWebcamBridge.Phone.ClientRepository

/-!
# `ClientRecordCodec`: the stored form of the client list

A version, a count and the records: the key, the label with its length in bytes, and the two times.
The id is not stored. `codec_bijection` says that `decode` reads back every list that `encode`
takes and that whatever `decode` accepts is the encoding of what it returns.
-/

set_option autoImplicit false

namespace MobileWebcamBridge
namespace ClientRecordCodec

open Bytes ClientAuthorization Reader Unicode Wire

variable (P : Platform)

/-- The longest encoding of a list. -/
def MAX_BYTES : ℕ := 2 + MAX_CLIENTS * (65 + 1 + 32 + 8 + 8)

/-- `DataOutputStream.writeLong`. -/
def writeLong (v : ℤ) : List UInt8 := toBE 8 (Int64.ofInt v).toUInt64.toNat

/-- `DataInputStream.readLong`. -/
def readLong (input : List UInt8) : Option (ℤ × List UInt8) := do
  let (bytes, input) ← fixed 8 input
  some ((UInt64.ofNat (ofBE bytes)).toInt64.toInt, input)

/-- `DataInputStream.readUnsignedByte`. -/
def readUnsignedByte : List UInt8 → Option (ℕ × List UInt8)
  | [] => none
  | b :: input => some (b.toNat, input)

/-- The part of `encode` that is about one client. -/
def writeClient (client : Client) : List UInt8 :=
  client.publicKey ++ (UInt8.ofNat (labelBytes client.label).length :: (labelBytes client.label ++
    (writeLong client.approvedAtUnixSeconds ++ writeLong client.expiresAtUnixSeconds)))

/-- The part of `decode` that is about one client. -/
def readClient (input : List UInt8) : Option (Client × List UInt8) := do
  let (key, input) ← fixed 65 input
  let (length, input) ← readUnsignedByte input
  if length ≤ MAX_CLIENT_LABEL then
    let (bytes, input) ← fixed length input
    let label ← fromUtf8 bytes
    let (approved, input) ← readLong input
    let (expires, input) ← readLong input
    some ({ clientId := deriveClientId P key, publicKey := key, label
            approvedAtUnixSeconds := approved, expiresAtUnixSeconds := expires }, input)
  else none

/-- `none` is what `validate` throws. -/
def encode (clients : List Client) : Option (List UInt8) :=
  if Validated P clients then
    some (1 :: UInt8.ofNat clients.length :: clients.flatMap writeClient)
  else none

/-- `none` is an exception. -/
def decode (bytes : List UInt8) : Option (List Client) :=
  if 2 ≤ bytes.length ∧ bytes.length ≤ MAX_BYTES then do
    let (version, input) ← readUnsignedByte bytes
    if version = 1 then
      let (count, input) ← readUnsignedByte input
      if count ≤ MAX_CLIENTS then
        let (clients, input) ← repeated (readClient P) count input
        if input = [] ∧ Validated P clients then some clients else none
      else none
    else none
  else none

variable {P}

/-! ## The fields -/

/-- A `Long`. -/
def IsLong (v : ℤ) : Prop := -9223372036854775808 ≤ v ∧ v < 9223372036854775808

/-- The value of the eight bytes of a `Long`. -/
def long (bytes : List UInt8) : ℤ := (UInt64.ofNat (ofBE bytes)).toInt64.toInt

theorem isLong_long (bytes : List UInt8) : IsLong (long bytes) := by
  have hge := Int64.le_toInt (UInt64.ofNat (ofBE bytes)).toInt64
  have hlt := Int64.toInt_lt (UInt64.ofNat (ofBE bytes)).toInt64
  unfold IsLong long
  omega

/-- A number of eight bytes is read back. -/
theorem long_writeLong {v : ℤ} (hv : IsLong v) : long (writeLong v) = v := by
  have hlt : (Int64.ofInt v).toUInt64.toNat < 256 ^ 8 := (Int64.ofInt v).toUInt64.toNat_lt
  rw [long, writeLong, ofBE_toBE_of_lt hlt, UInt64.ofNat_toNat]
  show (Int64.ofInt v).toInt = v
  apply Int64.toInt_ofInt_of_le
  · unfold IsLong at hv
    omega
  · unfold IsLong at hv
    omega

/-- Eight bytes are those of the number they read as. -/
theorem writeLong_long {bytes : List UInt8} (h : bytes.length = 8) :
    writeLong (long bytes) = bytes := by
  have hlt : ofBE bytes < 2 ^ 64 := by
    have hlt := ofBE_lt bytes
    rw [h] at hlt
    exact hlt
  rw [writeLong, long, Int64.ofInt_toInt]
  show toBE 8 (UInt64.ofNat (ofBE bytes)).toNat = bytes
  rw [UInt64.toNat_ofNat', Nat.mod_eq_of_lt hlt, toBE_ofBE h]

/-- The codec of a number. -/
theorem long_inverse : Inverse IsLong writeLong readLong where
  reads := by
    intro v hv rest
    have hfixed : fixed 8 (writeLong v ++ rest) = some (writeLong v, rest) :=
      (fixed_inverse 8).reads (writeLong v) (length_toBE _ _) rest
    have hread : readLong (writeLong v ++ rest) = some (long (writeLong v), rest) := by
      rw [readLong, hfixed]
      rfl
    rw [hread, long_writeLong hv]
  exact := by
    intro input v rest h
    simp only [readLong, Option.bind_eq_bind, Option.bind_eq_some_iff] at h
    obtain ⟨⟨bytes, rest'⟩, hfixed, heq⟩ := h
    obtain ⟨hv, rfl⟩ := Prod.mk.inj (Option.some.inj heq)
    obtain ⟨hlen, rfl⟩ := (fixed_inverse 8).exact _ _ _ hfixed
    subst hv
    exact ⟨isLong_long bytes, congrArg (· ++ rest') (writeLong_long hlen).symm⟩

/-! ## One client -/

/-- The clients that one record can hold. -/
structure Recorded (P : Platform) (client : Client) : Prop where
  id : client.clientId = deriveClientId P client.publicKey
  key : client.publicKey.length = 65
  label : (labelBytes client.label).length ≤ MAX_CLIENT_LABEL
  approved : IsLong client.approvedAtUnixSeconds
  expires : IsLong client.expiresAtUnixSeconds

/-- The codec of a record. -/
theorem client_inverse : Inverse (Recorded P) writeClient (readClient P) where
  reads := by
    intro client h rest
    have hlength : (UInt8.ofNat (labelBytes client.label).length).toNat =
        (labelBytes client.label).length := by
      rw [UInt8.toNat_ofNat']
      have hle : (labelBytes client.label).length ≤ 32 := h.label
      omega
    have hkey (input : List UInt8) :
        fixed 65 (client.publicKey ++ input) = some (client.publicKey, input) :=
      (fixed_inverse 65).reads client.publicKey h.key input
    have hlabel (input : List UInt8) :
        fixed (labelBytes client.label).length (labelBytes client.label ++ input) =
          some (labelBytes client.label, input) :=
      (fixed_inverse _).reads (labelBytes client.label) rfl input
    have htext : fromUtf8 (labelBytes client.label) = some client.label :=
      fromUtf8_utf8 client.label
    unfold readClient writeClient
    simp only [List.append_assoc, List.cons_append, Option.bind_eq_bind, hkey, Option.bind_some,
      readUnsignedByte, hlength, if_pos h.label, hlabel, htext, long_inverse.reads _ h.approved,
      long_inverse.reads _ h.expires]
    rw [← h.id]
  exact := by
    intro input client rest h
    simp only [readClient, Option.bind_eq_bind, Option.bind_eq_some_iff] at h
    obtain ⟨⟨key, input₁⟩, hkey, ⟨length, input₂⟩, hlength, h⟩ := h
    split at h
    · next hle =>
      simp only [Option.bind_eq_some_iff] at h
      obtain ⟨⟨bytes, input₃⟩, hbytes, label, hlabel, ⟨approved, input₄⟩, happroved,
        ⟨expires, input₅⟩, hexpires, heq⟩ := h
      obtain ⟨rfl, rfl⟩ := Prod.mk.inj (Option.some.inj heq)
      obtain ⟨hkeylen, rfl⟩ := (fixed_inverse 65).exact _ _ _ hkey
      obtain ⟨hbyteslen, rfl⟩ := (fixed_inverse length).exact _ _ _ hbytes
      obtain ⟨hlong, rfl⟩ := long_inverse.exact _ _ _ happroved
      obtain ⟨hlong', rfl⟩ := long_inverse.exact _ _ _ hexpires
      have htext : labelBytes label = bytes := utf8_of_fromUtf8 hlabel
      refine ⟨⟨rfl, hkeylen, by rw [htext, hbyteslen]; exact hle, hlong, hlong'⟩, ?_⟩
      cases input₁ with
      | nil => cases hlength
      | cons b tail =>
        obtain ⟨hb, htail⟩ := Prod.mk.inj (Option.some.inj hlength)
        have hbyte : UInt8.ofNat bytes.length = b := by
          rw [hbyteslen, ← hb, UInt8.ofNat_toNat]
        rw [htail, writeClient, htext, hbyte]
        simp
    · cases h

/-! ## The list -/

/-- What `publicKey` requires of a point before it asks the platform. -/
def SizedKeys (P : Platform) : Prop :=
  ∀ point, P.validPublicKey point = true → point.length = CLIENT_PUBLIC_KEY_BYTES

/-- A valid record can be written. -/
theorem recorded_of_valid (hkeys : SizedKeys P) {client : Client} (h : client.Valid P) :
    Recorded P client := by
  obtain ⟨hkey, hid, hlabel, hfrom, hto, hperiod, -⟩ := h
  refine ⟨hid, hkeys _ hkey, ?_, ?_, ?_⟩
  · simp only [labelValid, Bool.and_eq_true, decide_eq_true_eq] at hlabel
    exact hlabel.1.2
  · unfold IsLong
    omega
  · unfold IsLong
    omega

/-- A record is short. -/
theorem length_writeClient_le {client : Client} (h : Recorded P client) :
    (writeClient client).length ≤ 65 + 1 + 32 + 8 + 8 := by
  have hlabel : (labelBytes client.label).length ≤ 32 := h.label
  have hkey := h.key
  simp only [writeClient, List.length_append, List.length_cons, writeLong, length_toBE]
  omega

/-- So are the records of a list. -/
theorem length_flatMap_le {clients : List Client} (h : ∀ client ∈ clients, Recorded P client) :
    (clients.flatMap writeClient).length ≤ clients.length * (65 + 1 + 32 + 8 + 8) := by
  induction clients with
  | nil => simp
  | cons client clients ih =>
    obtain ⟨hclient, hall⟩ := List.forall_mem_cons.mp h
    have hfirst := length_writeClient_le hclient
    have hrest := ih hall
    rw [List.flatMap_cons, List.length_append, List.length_cons]
    omega

/-- A valid list is read back. -/
theorem decode_encode (hkeys : SizedKeys P) {clients : List Client} (h : Validated P clients) :
    ∃ bytes, encode P clients = some bytes ∧ bytes.length ≤ MAX_BYTES ∧
      decode P bytes = some clients := by
  have hrecorded : ∀ client ∈ clients, Recorded P client :=
    fun client hclient => recorded_of_valid hkeys (h.2.1 client hclient)
  have hcount : clients.length ≤ 8 := h.1
  have hsize := length_flatMap_le hrecorded
  have hbound : (1 :: UInt8.ofNat clients.length :: clients.flatMap writeClient).length ≤
      MAX_BYTES := by
    show (clients.flatMap writeClient).length + 1 + 1 ≤ 2 + 8 * (65 + 1 + 32 + 8 + 8)
    omega
  refine ⟨_, if_pos h, hbound, ?_⟩
  have hbyte : (UInt8.ofNat clients.length).toNat = clients.length := by
    rw [UInt8.toNat_ofNat']
    omega
  have hread : repeated (readClient P) clients.length (clients.flatMap writeClient) =
      some (clients, []) := by
    have hread := (client_inverse.repeated clients.length).reads clients ⟨rfl, hrecorded⟩ []
    rw [List.append_nil] at hread
    exact hread
  rw [decode, if_pos ⟨by simp, hbound⟩]
  have hversion : (1 : UInt8).toNat = 1 := rfl
  simp only [readUnsignedByte, Option.bind_eq_bind, Option.bind_some, hversion, if_true, hbyte,
    if_pos h.1, hread, if_pos (And.intro trivial h)]

/-- What is read as a list is its encoding. -/
theorem encode_decode {bytes : List UInt8} {clients : List Client}
    (h : decode P bytes = some clients) : encode P clients = some bytes := by
  unfold decode at h
  split at h
  · simp only [Option.bind_eq_bind, Option.bind_eq_some_iff] at h
    obtain ⟨⟨version, input₁⟩, hversion, h⟩ := h
    split at h
    · next hone =>
      simp only [Option.bind_eq_some_iff] at h
      obtain ⟨⟨count, input₂⟩, hcount, h⟩ := h
      split at h
      · simp only [Option.bind_eq_some_iff] at h
        obtain ⟨⟨list, input₃⟩, hlist, h⟩ := h
        split at h
        · next hend =>
          obtain ⟨hnil, hvalid⟩ := hend
          dsimp only at hnil hvalid hone h
          obtain rfl := Option.some.inj h
          obtain ⟨⟨hlen, -⟩, rfl⟩ := (client_inverse.repeated count).exact _ _ _ hlist
          cases bytes with
          | nil => cases hversion
          | cons v tail =>
            obtain ⟨hv, htail⟩ := Prod.mk.inj (Option.some.inj hversion)
            subst htail
            cases tail with
            | nil => cases hcount
            | cons b tail =>
              obtain ⟨hb, htail⟩ := Prod.mk.inj (Option.some.inj hcount)
              have hfirst : v = 1 := by
                apply UInt8.toNat_inj.mp
                rw [hv]
                exact hone
              have hsecond : UInt8.ofNat list.length = b := by
                rw [hlen, ← hb, UInt8.ofNat_toNat]
              rw [encode, if_pos hvalid, hsecond, hfirst, htail, hnil, List.append_nil]
        · cases h
      · cases h
    · cases h
  · cases h

/-- `decode` reads back what `encode` writes, and accepts nothing else. -/
theorem codec_bijection (hkeys : SizedKeys P) :
    (∀ clients, Validated P clients → ∃ bytes, encode P clients = some bytes ∧
      bytes.length ≤ MAX_BYTES ∧ decode P bytes = some clients) ∧
    ∀ bytes clients, decode P bytes = some clients → encode P clients = some bytes :=
  ⟨fun _ h => decode_encode hkeys h, fun _ _ h => encode_decode h⟩

/-- A platform whose keys are the byte strings of the right length, each its own digest. -/
def samplePlatform : Platform where
  sha256 key := key
  validPublicKey key := key.length == CLIENT_PUBLIC_KEY_BYTES
  verify _ _ _ := false
  isWhitespace c := c == ' '
  scalarIsSafe _ := true

/-- Two records with labels outside ASCII. -/
def sampleClients : List Client :=
  [7, 8].map fun k =>
    { clientId := List.replicate CLIENT_ID_BYTES k
      publicKey := List.replicate CLIENT_PUBLIC_KEY_BYTES k
      label := ['é', 't']
      approvedAtUnixSeconds := 100
      expiresAtUnixSeconds := 200 }

/-- Two records are read back. -/
theorem codec_sample :
    ∃ bytes, encode samplePlatform sampleClients = some bytes ∧ bytes.length = 172 ∧
      decode samplePlatform bytes = some sampleClients := by
  have hkeys : SizedKeys samplePlatform := fun point h => beq_iff_eq.mp h
  have hvalid : Validated samplePlatform sampleClients := by decide +kernel
  obtain ⟨bytes, hencode, -, hdecode⟩ := (codec_bijection hkeys).1 sampleClients hvalid
  have hlen : (encode samplePlatform sampleClients).map List.length = some 172 := by decide +kernel
  rw [hencode] at hlen
  exact ⟨bytes, hencode, Option.some.inj hlen, hdecode⟩

end ClientRecordCodec
end MobileWebcamBridge
