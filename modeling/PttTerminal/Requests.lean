import Mathlib
import PttTerminal.CallerNumber
import PttTerminal.IpText
import PttTerminal.Library.ModifiedUtf8

/-!
# The addresses of the requests

The registration and each request copy strings of the application to arrays of the native code and
print addresses from them, and never look at a length. What the settings screen lets be saved and
the editors let be typed is limited in units, of which each takes up to three bytes.
-/
namespace PttTerminal

open ModifiedUtf8

abbrev JString := List UInt16

structure SipServer where
  serverIp : JString
  port : JString
  deriving Repr, DecidableEq

structure SipUser where
  username : JString
  passwd : JString
  deriving Repr, DecidableEq

/-- What the registration fills in of `pjsua_acc_config`. -/
structure AccConfig where
  id : Bytes
  regUri : Bytes
  username : Bytes
  data : Bytes
  regTimeout : ℕ
  deriving Repr, DecidableEq

def strcpy (size : ℕ) (text : Bytes) : Except Fault Bytes := sprintf size text

/-- The usual port is left out. -/
def printRegistrar (serverip port : Bytes) : Except Fault Bytes :=
  if port ≠ ascii "5060" then sprintf 80 (ascii "sip:" ++ serverip ++ ascii ":" ++ port)
  else sprintf 80 (ascii "sip:" ++ serverip)

/-- The arrays of the addresses have 80 bytes, the one of the password 30. -/
def login (server : SipServer) (user : SipUser) : Except Fault AccConfig := do
  let serverip ← strcpy 64 (encode server.serverIp)
  let port ← strcpy 8 (encode server.port)
  let username ← strcpy 32 (encode user.username)
  let passwd ← strcpy 32 (encode user.passwd)
  let id ← sprintf 80 (ascii "sip:" ++ username ++ ascii "@" ++ serverip)
  let registrar ← printRegistrar serverip port
  let uname ← strcpy 80 username
  let passwd ← strcpy 30 passwd
  return ⟨id, registrar, uname, passwd, 300⟩

/-- A request as it is handed over to be sent. -/
structure MessageRequest where
  uri : Bytes
  type : Bytes
  subtype : Bytes
  body : Bytes
  deriving Repr, DecidableEq

inductive RequestResult where
  | sent (r : MessageRequest)
  /-- There is no account. -/
  | einvalidop
  /-- The account's address has no `@`. -/
  | enotfound
  | enomem
  | failed (status : ℤ)
  deriving Repr, DecidableEq

/-- What the library makes of a request. -/
structure Pjsip where
  /-- Whether `pjsua_acc_create_request` can read the address. -/
  createsRequest : Bytes → Bool
  createsBody : Bytes → Bool
  sendRequest : MessageRequest → ℤ

/-- The request gets its body and is sent. -/
def Pjsip.send (lib : Pjsip) (r : MessageRequest) : RequestResult :=
  if !lib.createsBody r.body then .enomem
  else if lib.sendRequest r ≠ 0 then .failed (lib.sendRequest r)
  else .sent r

/-- The number with what stands from the first `@` of the account's address on. -/
def printUri (number host : Bytes) : Except Fault Bytes :=
  sprintf 64 (ascii "sip:" ++ number ++ host)

/-- The two functions that send a request. Neither looks at whether it was made, so that one that
was not is used all the same. -/
def request (lib : Pjsip) (accounts : List AccConfig) (number type subtype text : Bytes) :
    Except Fault RequestResult :=
  match accounts with
  | [] => .ok .einvalidop
  | acc :: _ =>
    match strchr 64 acc.id with
    | none => .ok .enotfound
    | some host => do
      let tmp ← printUri number host
      let msg ← strcpy 512 text
      if lib.createsRequest tmp then return lib.send ⟨tmp, type, subtype, msg⟩
      else .error .uninitialized

def sendMessage (lib : Pjsip) (accounts : List AccConfig) (num text : JString) :
    Except Fault RequestResult :=
  request lib accounts (encode num) (ascii "text") (ascii "plain") (encode text)

inductive MsgAction where
  | getMember
  | applyPttRight
  | cancelPttRight
  | getGrpNumber
  deriving Repr, DecidableEq

def MsgAction.msg : MsgAction → Bytes
  | getMember => ascii "req:memberInfo\r\n"
  | applyPttRight => ascii "req:ptt-request\r\n"
  | cancelPttRight => ascii "req:ptt-cancel\r\n"
  | getGrpNumber => ascii "req:groupInfo\r\n"

def sendPttMessage (lib : Pjsip) (accounts : List AccConfig) (action : MsgAction) (num : JString) :
    Except Fault RequestResult :=
  request lib accounts (encode num) (ascii "application") (ascii "zzy-ptt") action.msg

/-! ### What the screens let through -/

/-- The fields of the settings screen. -/
structure RegisterFields where
  serverIp : JString
  port : JString
  username : JString
  password : JString

/-- The filters of the fields. -/
structure RegisterFields.Typed (f : RegisterFields) : Prop where
  serverIp : f.serverIp.length ≤ 15
  username : f.username.length ≤ 10
  password : f.password.length ≤ 10
  port : f.port.length ≤ 10

/-- The characters of a string; a part of a surrogate pair is no character. -/
def javaText (s : JString) : String := String.ofList (s.map fun u => Char.ofNat u.toNat)

/-- What is saved, and read again for the registration. -/
def doSave (f : RegisterFields) : Option (SipServer × SipUser) :=
  if PTTUtil.checkIP (javaText f.serverIp) then some (⟨f.serverIp, f.port⟩, ⟨f.username, f.password⟩)
  else none

theorem sprintf_eq_ok {size : ℕ} {text b : Bytes} :
    sprintf size text = .ok b ↔ text.length < size ∧ b = text := by
  unfold sprintf
  split_ifs with h
  · simp [h, eq_comm]
  · simp [h]

/-- The strings fit into the arrays of the registration. -/
structure LoginFits (server : SipServer) (user : SipUser) : Prop where
  serverIp : (encode server.serverIp).length < 64
  port : (encode server.port).length < 8
  username : (encode user.username).length < 32
  passwd : (encode user.passwd).length < 30
  id : (encode user.username).length + (encode server.serverIp).length < 75

/-- The account of a registration. -/
def accConfig (server : SipServer) (user : SipUser) : AccConfig where
  id := ascii "sip:" ++ encode user.username ++ ascii "@" ++ encode server.serverIp
  regUri :=
    if encode server.port ≠ ascii "5060" then
      ascii "sip:" ++ encode server.serverIp ++ ascii ":" ++ encode server.port
    else ascii "sip:" ++ encode server.serverIp
  username := encode user.username
  data := encode user.passwd
  regTimeout := 300

theorem ascii_sip : ascii "sip" = [115, 105, 112] := rfl
theorem ascii_sip_colon : ascii "sip:" = [115, 105, 112, 58] := rfl
theorem ascii_at : ascii "@" = [64] := rfl
theorem length_sip : (ascii "sip:").length = 4 := rfl
theorem length_at : (ascii "@").length = 1 := rfl
theorem length_colon : (ascii ":").length = 1 := rfl

/-- The registration gets as far as the account exactly when everything fits. -/
theorem login_eq_ok {server : SipServer} {user : SipUser} {cfg : AccConfig} :
    login server user = .ok cfg ↔ LoginFits server user ∧ cfg = accConfig server user := by
  have hregistrar : ∀ r, printRegistrar (encode server.serverIp) (encode server.port) = .ok r ↔
      (accConfig server user).regUri.length < 80 ∧ r = (accConfig server user).regUri := by
    intro r
    simp only [accConfig, printRegistrar]
    split_ifs
    · exact sprintf_eq_ok
    · exact sprintf_eq_ok
  have hlength : (encode server.serverIp).length < 64 → (encode server.port).length < 8 →
      (accConfig server user).regUri.length < 80 := by
    intro hip hport
    simp only [accConfig]
    split_ifs
    · simp only [List.length_append, length_sip, length_colon]
      omega
    · simp only [List.length_append, length_sip]
      omega
  constructor
  · intro h
    simp only [login, strcpy, bind_eq_ok, sprintf_eq_ok] at h
    obtain ⟨_, ⟨hip, rfl⟩, _, ⟨hport, rfl⟩, _, ⟨huser, rfl⟩, _, ⟨hpasswd, rfl⟩, _, ⟨hid, rfl⟩, r, hr,
      _, ⟨-, rfl⟩, _, ⟨hdata, rfl⟩, hcfg⟩ := h
    obtain ⟨-, rfl⟩ := (hregistrar r).mp hr
    simp only [List.length_append, length_sip, length_at] at hid
    cases hcfg
    exact ⟨⟨hip, hport, huser, hdata, by omega⟩, rfl⟩
  · rintro ⟨h, rfl⟩
    simp only [login, strcpy, bind_eq_ok, sprintf_eq_ok]
    refine ⟨_, ⟨h.serverIp, rfl⟩, _, ⟨h.port, rfl⟩, _, ⟨h.username, rfl⟩, _, ⟨?_, rfl⟩, _, ⟨?_, rfl⟩, _,
      (hregistrar _).mpr ⟨hlength h.serverIp h.port, rfl⟩, _, ⟨?_, rfl⟩, _, ⟨h.passwd, rfl⟩, rfl⟩
    · have := h.passwd
      omega
    · have := h.id
      simp only [List.length_append, length_sip, length_at]
      omega
    · have := h.username
      omega

/-! ### Addresses of the settings screen -/

theorem IsOctet.length_le {o : List Char} (h : IsOctet o) : o.length ≤ 3 := by
  rcases h.2 with h | h | h
  · omega
  · omega
  · omega

/-- An address that is accepted has at most fifteen characters, and each takes one byte. -/
theorem length_encode_checked {ip : JString} (h : PTTUtil.checkIP (javaText ip) = true) :
    (encode ip).length ≤ 15 ∧ 64 ∉ encode ip := by
  obtain ⟨q, hq⟩ := checkIP_iff.mp h
  have hchars : ip.map (fun u => Char.ofNat u.toNat) = q.text.toList := by
    rw [← hq, javaText, String.toList_ofList]
  have hlength : ip.length ≤ 15 := by
    obtain ⟨o₁, o₂, o₃, o₄, ⟨h₁, h₂, h₃, h₄⟩, -, htext⟩ := q.exists_octets
    have := congrArg List.length (hchars.trans htext)
    simp only [List.length_map, List.length_append, List.length_cons] at this
    have := h₁.length_le
    have := h₂.length_le
    have := h₃.length_le
    have := h₄.length_le
    omega
  have hunits : ∀ u ∈ ip, 46 ≤ u.toNat ∧ u.toNat ≤ 57 := by
    intro u hu
    have hmem : Char.ofNat u.toNat ∈ q.text.toList := by
      rw [← hchars]
      exact List.mem_map_of_mem hu
    have hnat : (Char.ofNat u.toNat).toNat = u.toNat ∨ (Char.ofNat u.toNat).toNat = 0 := by
      unfold Char.ofNat
      split
      · exact .inl rfl
      · exact .inr rfl
    rcases q.text_chars _ hmem with hdigit | hdot
    · have := isDigit_iff.mp hdigit
      omega
    · have : (Char.ofNat u.toNat).toNat = 46 := by rw [hdot]; rfl
      omega
  refine ⟨?_, ?_⟩
  · rw [length_encode_of_lt fun u hu => ⟨by have := hunits u hu; omega, by have := hunits u hu; omega⟩]
    exact hlength
  · rw [mem_encode (by decide) (by decide)]
    intro hmem
    have := hunits _ hmem
    simp at this

/-- The settings that can be saved can be registered with exactly when the port has at most seven
bytes and the password less than thirty; ten units of the latter may take thirty. -/
theorem saved_login_iff {f : RegisterFields} (hf : f.Typed) {server : SipServer} {user : SipUser}
    (hsave : doSave f = some (server, user)) (cfg : AccConfig) :
    login server user = .ok cfg ↔
      ((encode f.port).length ≤ 7 ∧ (encode f.password).length ≤ 29) ∧
        cfg = accConfig server user := by
  unfold doSave at hsave
  split_ifs at hsave with hcheck
  obtain ⟨hip, -⟩ := length_encode_checked hcheck
  have huser := length_encode_le f.username
  have hname := hf.username
  cases hsave
  rw [login_eq_ok]
  refine and_congr_left fun _ => ⟨fun h => ?_, fun h => ?_⟩
  · have hport := h.port
    have hpasswd := h.passwd
    simp only at hport hpasswd
    omega
  · refine ⟨?_, ?_, ?_, ?_, ?_⟩
    all_goals simp only
    all_goals omega

def deskFields : RegisterFields where
  serverIp := [49, 48, 46, 48, 46, 48, 46, 57]
  port := [53, 48, 54, 49]
  username := [49, 48, 49]
  password := [49, 50, 51]

theorem deskFields_typed : deskFields.Typed := ⟨by decide, by decide, by decide, by decide⟩

theorem deskFields_login : login ⟨deskFields.serverIp, deskFields.port⟩
      ⟨deskFields.username, deskFields.password⟩ =
    .ok (accConfig ⟨deskFields.serverIp, deskFields.port⟩
      ⟨deskFields.username, deskFields.password⟩) :=
  (saved_login_iff deskFields_typed (by decide +kernel) _).mpr ⟨⟨by decide, by decide⟩, rfl⟩

/-! ### Calling back -/

/-- The characters of a user part that stand for themselves in an address. -/
def isUserChar (u : UInt16) : Bool :=
  (48 ≤ u && u ≤ 57) || (65 ≤ u && u ≤ 90) || (97 ≤ u && u ≤ 122) ||
    u ∈ "-_.!~*'()&=+$,;?/".toList.map fun c => UInt16.ofNat c.toNat

/-- The number that a terminal reads of a caller with the account `a`, dialled by one with the
account `b`. `remoteInfo` is how the library shows the address of a caller. -/
def callBack (remoteInfo : AccConfig → Bytes) (a b : AccConfig) : Except Fault (Option Bytes) := do
  let number ← inNumber (remoteInfo a)
  match strchr 64 b.id with
  | none => return none
  | some host =>
    let uri ← printUri number host
    return some uri

theorem userChars_clear {s : JString} (h : ∀ u ∈ s, isUserChar u = true) :
    64 ∉ encode s ∧ (encode s).head? ≠ some 32 := by
  have hnot : ∀ b : UInt8, b.toNat < 0x80 → b ≠ 0 → isUserChar (.ofNat b.toNat) = false →
      b ∉ encode s := by
    intro b hb hzero hchar hmem
    rw [mem_encode hb hzero] at hmem
    cases (h _ hmem).symm.trans hchar
  refine ⟨hnot 64 (by decide) (by decide) (by decide), fun hhead => ?_⟩
  exact hnot 32 (by decide) (by decide) (by decide) (List.mem_of_mem_head? hhead)

/-- What stands behind the user part of an account. -/
theorem strchr_id {server : SipServer} {user : SipUser} (h : 64 ∉ encode user.username) :
    strchr 64 (accConfig server user).id = some (64 :: encode server.serverIp) := by
  have hid : (accConfig server user).id =
      (ascii "sip:" ++ encode user.username) ++ 64 :: encode server.serverIp := by
    simp [accConfig, ascii_at]
  rw [hid]
  exact strchr_append (by simp [ascii_sip_colon, h]) _

theorem sip_scheme : 0 ∉ ascii "sip" ∧ 58 ∉ ascii "sip" ∧ 64 ∉ ascii "sip" := by decide

/-- The address of an account as the other side is shown it. -/
def accAddr (server : SipServer) (user : SipUser) : NameAddr where
  display := some []
  scheme := ascii "sip"
  user := encode user.username
  host := encode server.serverIp
  displayText := List.not_mem_nil
  schemeText := sip_scheme
  userText := zero_notMem_encode _
  hostText := zero_notMem_encode _

theorem accAddr_text (server : SipServer) (user : SipUser) :
    (accAddr server user).text = 60 :: ((accConfig server user).id ++ [62]) := by
  simp [accAddr, NameAddr.text, NameAddr.uri, accConfig, ascii_sip, ascii_sip_colon, ascii_at]

/-- The number that is read of a caller is its user name. -/
theorem inNumber_id {server : SipServer} {user : SipUser}
    (hlength : (encode user.username).length < 32)
    (hchars : ∀ u ∈ user.username, isUserChar u = true) :
    inNumber (60 :: ((accConfig server user).id ++ [62])) = .ok (encode user.username) := by
  have hread : uriNumber (accAddr server user).text = some (accAddr server user).user :=
    (accAddr server user).number_eq_user.mpr ⟨userChars_clear hchars, by
      intro d hd
      obtain rfl : d = [] := by simpa [accAddr] using hd.symm
      exact .inl ⟨by simp, by simp⟩⟩
  rw [accAddr_text] at hread
  rw [inNumber, hread]
  exact sprintf_eq_ok.mpr ⟨hlength, rfl⟩

/-- Two terminals of one server whose settings were saved call each other back: the number that is
read of a caller, dialled at the other one, is the caller's own address again, if the library shows
it in brackets. -/
theorem called_back {f g : RegisterFields} {server server' : SipServer} {user user' : SipUser}
    {a b : AccConfig} (hf : f.Typed) (hsave : doSave f = some (server, user))
    (hsave' : doSave g = some (server', user')) (hserver : f.serverIp = g.serverIp)
    (ha : login server user = .ok a) (hb : login server' user' = .ok b)
    (hchars : ∀ u ∈ f.username, isUserChar u = true)
    (hchars' : ∀ u ∈ g.username, isUserChar u = true) (remoteInfo : AccConfig → Bytes)
    (hshown : remoteInfo a = 60 :: (a.id ++ [62])) :
    callBack remoteInfo a b = .ok (some a.id) := by
  obtain ⟨hfits, rfl⟩ := login_eq_ok.mp ha
  obtain ⟨hfits', rfl⟩ := login_eq_ok.mp hb
  unfold doSave at hsave hsave'
  split_ifs at hsave hsave' with hcheck hcheck'
  cases hsave
  cases hsave'
  have hip := (length_encode_checked hcheck).1
  have hname := length_encode_le f.username
  have htyped := hf.username
  rw [callBack, hshown, inNumber_id hfits.username hchars, ok_bind,
    strchr_id (userChars_clear hchars').1]
  simp only [← hserver]
  have hid : ascii "sip:" ++ encode f.username ++ 64 :: encode f.serverIp =
      (accConfig ⟨f.serverIp, f.port⟩ ⟨f.username, f.password⟩).id := by
    simp [accConfig, ascii_at]
  rw [printUri, hid, sprintf, if_pos ?_]
  · rfl
  · rw [← hid]
    simp only [List.length_append, List.length_cons, length_sip]
    omega

def deskTwoFields : RegisterFields where
  serverIp := deskFields.serverIp
  port := [53, 48, 54, 48]
  username := [49, 48, 50]
  password := []

/-- A terminal whose user name is a number. -/
def deskThreeFields : RegisterFields where
  serverIp := deskFields.serverIp
  port := [53, 48, 54, 49]
  username := [49, 48, 51, 43]
  password := [49]

theorem deskTwo_chars : ∀ u ∈ deskTwoFields.username, isUserChar u = true :=
  List.all_eq_true.mp (by decide)

theorem desks_call_back :
    callBack (fun acc => 60 :: (acc.id ++ [62]))
      (accConfig ⟨deskTwoFields.serverIp, deskTwoFields.port⟩ ⟨deskTwoFields.username, []⟩)
      (accConfig ⟨deskThreeFields.serverIp, deskThreeFields.port⟩ ⟨deskThreeFields.username, [49]⟩) =
    .ok (some (ascii "sip:102@10.0.0.9")) := by
  have htyped : deskTwoFields.Typed := ⟨by decide, by decide, by decide, by decide⟩
  exact called_back htyped (g := deskThreeFields) (by decide +kernel) (by decide +kernel) rfl
    (login_eq_ok.mpr ⟨⟨by decide, by decide, by decide, by decide, by decide⟩, rfl⟩)
    (login_eq_ok.mpr ⟨⟨by decide, by decide, by decide, by decide, by decide⟩, rfl⟩)
    deskTwo_chars (List.all_eq_true.mp (by decide)) (fun acc => 60 :: (acc.id ++ [62])) rfl

/-! ### Messages -/

theorem printUri_eq_ok {number host b : Bytes} : printUri number (64 :: host) = .ok b ↔
    number.length + host.length ≤ 58 ∧ b = ascii "sip:" ++ number ++ 64 :: host := by
  rw [printUri, sprintf_eq_ok]
  refine and_congr_left fun _ => ?_
  simp only [List.length_append, List.length_cons, length_sip]
  omega

theorem length_msg_lt (action : MsgAction) : action.msg.length < 512 := by
  cases action
  all_goals decide

/-- A request comes to an end exactly when its address and its text fit and it could be made. -/
theorem request_eq_ok {lib : Pjsip} {acc : AccConfig} {server number type subtype text : Bytes}
    (hhost : strchr 64 acc.id = some (64 :: server)) (htext : text.length < 512)
    (r : RequestResult) : request lib [acc] number type subtype text = .ok r ↔
      (number.length + server.length ≤ 58 ∧
        lib.createsRequest (ascii "sip:" ++ number ++ 64 :: server) = true) ∧
      r = lib.send ⟨ascii "sip:" ++ number ++ 64 :: server, type, subtype, text⟩ := by
  simp only [request, hhost, strcpy, bind_eq_ok, printUri_eq_ok, sprintf_eq_ok]
  constructor
  · rintro ⟨_, ⟨hfits, rfl⟩, _, ⟨-, rfl⟩, h⟩
    split_ifs at h with hcreates
    cases h
    exact ⟨⟨hfits, hcreates⟩, rfl⟩
  · rintro ⟨⟨hfits, hcreates⟩, rfl⟩
    refine ⟨_, ⟨hfits, rfl⟩, _, ⟨htext, rfl⟩, ?_⟩
    rw [if_pos hcreates]
    rfl

/-- What is typed on the screens of the messages fits into its array whatever it is; the number and
the server have to fit into an address together, of which the library has to make a request, for a
message as for a request of the floor. -/
theorem typed_message_sent_iff {f : RegisterFields} {server : SipServer} {user : SipUser}
    {a : AccConfig} (hsave : doSave f = some (server, user)) (ha : login server user = .ok a)
    (hchars : ∀ u ∈ f.username, isUserChar u = true) {num text : JString}
    (htext : text.length ≤ 120) (lib : Pjsip) (r : RequestResult) :
    (sendMessage lib [a] num text = .ok r ↔
      ((encode num).length + (encode f.serverIp).length ≤ 58 ∧
        lib.createsRequest (ascii "sip:" ++ encode num ++ 64 :: encode f.serverIp) = true) ∧
        r = lib.send ⟨ascii "sip:" ++ encode num ++ 64 :: encode f.serverIp, ascii "text",
          ascii "plain", encode text⟩) ∧
    ∀ action : MsgAction, sendPttMessage lib [a] action num = .ok r ↔
      ((encode num).length + (encode f.serverIp).length ≤ 58 ∧
        lib.createsRequest (ascii "sip:" ++ encode num ++ 64 :: encode f.serverIp) = true) ∧
        r = lib.send ⟨ascii "sip:" ++ encode num ++ 64 :: encode f.serverIp, ascii "application",
          ascii "zzy-ptt", action.msg⟩ := by
  obtain ⟨-, rfl⟩ := login_eq_ok.mp ha
  unfold doSave at hsave
  split_ifs at hsave
  cases hsave
  have hhost : strchr 64 (accConfig ⟨f.serverIp, f.port⟩ ⟨f.username, f.password⟩).id =
      some (64 :: encode f.serverIp) := strchr_id (userChars_clear hchars).1
  have hbytes := length_encode_le text
  refine ⟨?_, fun action => ?_⟩
  · exact request_eq_ok hhost (by omega) r
  · exact request_eq_ok hhost (length_msg_lt action) r

/-- A library that reads an address without a blank. -/
def unblank : Pjsip where
  createsRequest uri := 32 ∉ uri
  createsBody _ := true
  sendRequest _ := 0

/-- Two characters of three bytes. -/
theorem deskTwo_message_sent :
    sendMessage unblank
      [accConfig ⟨deskTwoFields.serverIp, deskTwoFields.port⟩ ⟨deskTwoFields.username, []⟩]
      [49, 48, 51] [0x4F60, 0x597D] =
    .ok (.sent ⟨ascii "sip:103@10.0.0.9", ascii "text", ascii "plain",
      [0xE4, 0xBD, 0xA0, 0xE5, 0xA5, 0xBD]⟩) := by
  have hlogin : login ⟨deskTwoFields.serverIp, deskTwoFields.port⟩ ⟨deskTwoFields.username, []⟩ =
      .ok (accConfig ⟨deskTwoFields.serverIp, deskTwoFields.port⟩ ⟨deskTwoFields.username, []⟩) :=
    login_eq_ok.mpr ⟨⟨by decide, by decide, by decide, by decide, by decide⟩, rfl⟩
  exact (typed_message_sent_iff (f := deskTwoFields) (by decide +kernel) hlogin deskTwo_chars
    (by decide) unblank _).1.mpr ⟨⟨by decide, by decide⟩, by decide⟩

-- The number has a blank, and the request that was not made is used.
example : sendMessage unblank
    [accConfig ⟨deskTwoFields.serverIp, deskTwoFields.port⟩ ⟨deskTwoFields.username, []⟩]
    [49, 32, 50] [0x4F60] = .error .uninitialized := by decide

end PttTerminal
