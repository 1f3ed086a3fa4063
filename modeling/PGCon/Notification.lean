/-
# Notifications

What the services of the notification package send for a title and a message, and what they make of
the answer. A text is the bytes of its UTF-8 coding. `QmsgChanNotifyService` posts a form,
`ServerChanNotifyService` asks for a URL with the texts in its query, and `TgChanNotifyService` for
one with both texts in its path. All of them encode with the codec of forms, where a blank is a plus
sign.

The codec, the JSON library and the server are parameters. Of the codec it is assumed that it is
lawful, and of the server that it reads what there is in a request (`Server.Reads`): the fields of a
form or of the query, or the text of the last segment of a path, where a plus sign stands for itself.
So the fields of a form and of a query arrive as they were sent, whatever characters they have
(`fieldsOf_form`, `fieldsOf_query`). In a path the blanks do not. The URL is sent as it is given.
-/
import PGCon.UrlCoding

namespace PGCon
namespace Notification

open UrlCoding

/-! ### Requests -/

/-- A `GET`, or a `POST` of a form. -/
inductive Request where
  | get (url : List Byte)
  | postForm (url body : List Byte)
deriving DecidableEq, Repr

/-- The JSON library, with the getters of its objects, which cast what they find. A text that is
`null` has no object; `none` is an exception. -/
structure Json (Object : Type) where
  parseObject : List Byte → Option (Option Object)
  getBooleanValue : Object → String → Option Bool
  getIntValue : Object → String → Option ℤ

/-- The end of every `push`: the answer is read if there is one, and `isDone` says what it means. -/
def isAccepted {Object : Type} (json : Json Object) (isDone : Object → Option Bool) (response : Option (List Byte)) :
    Option Bool :=
  match response with
  | none => some false
  | some [] => some false
  | some text => (json.parseObject text).bind fun responseJson => responseJson.elim (some false) isDone

section

variable (codec : Codec) {Object : Type} (server : Request → Option (List Byte)) (json : Json Object)

/-- `HttpNotifyService.buildFormBody`, for the entries in the order of the map. `deleteCharAt` throws
where there is nothing to delete. -/
def buildFormBody (body : List (List Byte × List Byte)) : Option (List Byte) :=
  let sb := body.flatMap fun entry => entry.1 ++ ascii "=" ++ codec.encode entry.2 ++ ascii "&"
  if sb = [] then none else some sb.dropLast

namespace QmsgChan

/-- The entries of `params`. `Map.of` fixes no order of them. -/
def params (qq title message : List Byte) : List (List Byte × List Byte) :=
  [(ascii "qq", qq), (ascii "msg", title ++ ascii "|" ++ message)]

def request (token : List Byte) (entrySet : List (List Byte × List Byte)) : Option Request :=
  (buildFormBody codec entrySet).map (.postForm (ascii "https://qmsg.zendee.cn:443/send/" ++ token ++ ascii "/"))

def push (token : List Byte) (entrySet : List (List Byte × List Byte)) : Option Bool := do
  let sent ← request codec token entrySet
  isAccepted json (fun responseJson => json.getBooleanValue responseJson "success") (server sent)

end QmsgChan

/-- `responseJson.getIntValue("code") == 0`. -/
def isZero (responseJson : Object) : Option Bool :=
  (json.getIntValue responseJson "code").map fun code => code = 0

namespace ServerChan

def request (token title message : List Byte) : Request :=
  .get (ascii "https://sctapi.ftqq.com/" ++ token ++ ascii ".send?" ++
    (ascii "title=" ++ codec.encode title ++ ascii "&desp=" ++ codec.encode message))

def push (token title message : List Byte) : Option Bool :=
  isAccepted json (isZero json) (server (request codec token title message))

end ServerChan

namespace TgChan

def request (token title message : List Byte) : Request :=
  .get (ascii "https://dianbao.vercel.app/send/" ++ token ++ ascii "/" ++
    codec.encode (title ++ ascii ":" ++ message))

def push (token title message : List Byte) : Option Bool :=
  isAccepted json (isZero json) (server (request codec token title message))

end TgChan

/-! ### The other end -/

/-- The bytes that end the path of a URL. -/
def endsPath (b : Byte) : Bool := b = byte '?' || b = byte '#'

/-- What stands after the first question mark, without the fragment. -/
def query (url : List Byte) : List Byte :=
  ((url.takeWhile (· ≠ byte '#')).dropWhile (· ≠ byte '?')).drop 1

/-- The last segment of the path. -/
def segment (url : List Byte) : List Byte :=
  (url.takeWhile fun b => !endsPath b).rtakeWhile (· ≠ byte '/')

/-- The fields there are in a request: those of the body of a form, or of the query. -/
def fieldsOf : Request → Option (List (List Byte × List Byte))
  | .get url => parseForm codec (query url)
  | .postForm _ body => parseForm codec body

/-- The text there is in the last segment of the path. -/
def textOf : Request → Option (List Byte)
  | .get url => codec.decode (byte '+') (segment url)
  | .postForm url _ => codec.decode (byte '+') (segment url)

end

/-- What a server gets from a request. -/
structure Server where
  fields : Request → Option (List (List Byte × List Byte))
  text : Request → Option (List Byte)

/-- It gets what there is. -/
structure Server.Reads (server : Server) (codec : Codec) : Prop where
  fields : ∀ sent entries, fieldsOf codec sent = some entries → server.fields sent = some entries
  text : ∀ sent text, textOf codec sent = some text → server.text sent = some text

section

variable {codec : Codec}

/-! ### Forms and queries -/

/-- Deleting the last ampersand leaves the entries joined by ampersands. -/
theorem buildFormBody_eq {body : List (List Byte × List Byte)} (hne : body ≠ []) :
    buildFormBody codec body = some (join codec body) := by
  have hjoin : ∀ body : List (List Byte × List Byte), body ≠ [] →
      body.flatMap (fun entry => entry.1 ++ ascii "=" ++ codec.encode entry.2 ++ ascii "&") =
        join codec body ++ [byte '&'] := by
    intro body
    induction body with
    | nil => exact fun h => absurd rfl h
    | cons entry rest ih =>
      intro _
      have hentry : entry.1 ++ ascii "=" ++ codec.encode entry.2 ++ ascii "&" = pair codec entry ++ [byte '&'] := by
        simp [pair, ascii]
      rw [List.flatMap_cons, hentry]
      cases rest with
      | nil => simp [join]
      | cons next rest =>
        rw [ih (List.cons_ne_nil _ _)]
        simp [join, List.intercalate_cons_cons]
  unfold buildFormBody
  rw [hjoin body hne]
  simp

theorem fieldsOf_form (hcodec : codec.Lawful) {entries : List (List Byte × List Byte)} (hne : entries ≠ [])
    (h : PlainKeys entries) (token : List Byte) :
    ∃ sent, QmsgChan.request codec token entries = some sent ∧ fieldsOf codec sent = some entries := by
  unfold QmsgChan.request
  rw [buildFormBody_eq hne]
  exact ⟨_, rfl, parseForm_join hcodec hne h⟩

theorem query_append {host rest : List Byte} (hhost : ∀ b ∈ host, endsPath b = false) (hrest : byte '#' ∉ rest) :
    query (host ++ byte '?' :: rest) = rest := by
  have hpath : ∀ b ∈ host, b ≠ byte '?' ∧ b ≠ byte '#' := fun b hb => by
    simpa [endsPath] using hhost b hb
  have hfragment : ∀ b ∈ host ++ byte '?' :: rest, decide (b ≠ byte '#') = true := by
    intro b hb
    refine decide_eq_true fun heq => ?_
    subst heq
    rcases List.mem_append.mp hb with hb | hb
    · exact (hpath _ hb).2 rfl
    · rcases List.mem_cons.mp hb with hb | hb
      · exact absurd hb (by decide)
      · exact hrest hb
  rw [query, List.takeWhile_eq_self_iff.mpr hfragment,
    List.dropWhile_append_of_pos fun b hb => decide_eq_true (hpath b hb).1,
    List.dropWhile_cons_of_neg (by simp), List.drop_one, List.tail_cons]

/-- The entries of the query of the two texts. -/
def queryParams (title message : List Byte) : List (List Byte × List Byte) :=
  [(ascii "title", title), (ascii "desp", message)]

theorem plainKeys_queryParams (title message : List Byte) : PlainKeys (queryParams title message) := by
  have htitle : ∀ b ∈ ascii "title", isLetter b = true := by decide
  have hdesp : ∀ b ∈ ascii "desp", isLetter b = true := by decide
  simpa [PlainKeys, queryParams] using ⟨htitle, hdesp⟩

/-- A query of the two texts is the form of both. -/
theorem fieldsOf_query (hcodec : codec.Lawful) {token : List Byte} (htoken : ∀ b ∈ token, endsPath b = false)
    (title message : List Byte) :
    fieldsOf codec (ServerChan.request codec token title message) = some (queryParams title message) := by
  have hurl : ascii "https://sctapi.ftqq.com/" ++ token ++ ascii ".send?" ++
      (ascii "title=" ++ codec.encode title ++ ascii "&desp=" ++ codec.encode message) =
      (ascii "https://sctapi.ftqq.com/" ++ token ++ ascii ".send") ++ byte '?' ::
        join codec (queryParams title message) := by
    simp [queryParams, join, pair, ascii, List.intercalate_cons_cons]
  have hhost : ∀ b ∈ ascii "https://sctapi.ftqq.com/" ++ token ++ ascii ".send", endsPath b = false := by
    have hstart : ∀ b ∈ ascii "https://sctapi.ftqq.com/", endsPath b = false := by decide +kernel
    have hstop : ∀ b ∈ ascii ".send", endsPath b = false := by decide
    intro b hb
    rcases List.mem_append.mp hb with hb | hb
    · exact (List.mem_append.mp hb).elim (hstart b) (htoken b)
    · exact hstop b hb
  have hplain := plainKeys_queryParams title message
  have hfragment : byte '#' ∉ join codec (queryParams title message) := by
    have hpair : ∀ entry ∈ queryParams title message, byte '#' ∉ pair codec entry := fun entry hentry =>
      not_mem_pair hcodec (hplain entry hentry) rfl (by decide)
    have hand : byte '#' ≠ byte '&' := by decide
    simp only [queryParams, List.mem_cons, List.not_mem_nil, or_false, forall_eq_or_imp, forall_eq] at hpair
    simp [queryParams, join, List.intercalate_cons_cons, hpair, hand]
  unfold ServerChan.request fieldsOf
  rw [hurl]
  dsimp only
  rw [query_append hhost hfragment]
  exact parseForm_join hcodec (List.cons_ne_nil _ _) hplain

/-! ### What a push reports -/

theorem isAccepted_iff {Object : Type} (json : Json Object) (isDone : Object → Option Bool)
    (response : Option (List Byte)) :
    isAccepted json isDone response = some true ↔
      ∃ reply object, response = some reply ∧ reply ≠ [] ∧ json.parseObject reply = some (some object) ∧
        isDone object = some true := by
  unfold isAccepted
  split
  · simp
  · simp
  · rename_i reply hreply
    constructor
    · intro h
      obtain ⟨read, hread, hdone⟩ := Option.bind_eq_some_iff.mp h
      cases read with
      | none => cases hdone
      | some object => exact ⟨reply, object, rfl, hreply, hread, hdone⟩
    · rintro ⟨reply', object, heq, -, hread, hdone⟩
      obtain rfl := Option.some.inj heq
      rw [hread]
      exact hdone

theorem isAccepted_isZero {Object : Type} (json : Json Object) (response : Option (List Byte)) :
    isAccepted json (isZero json) response = some true ↔
      ∃ reply object, response = some reply ∧ reply ≠ [] ∧ json.parseObject reply = some (some object) ∧
        json.getIntValue object "code" = some 0 := by
  rw [isAccepted_iff]
  simp [isZero, Option.map_eq_some_iff]

/-- The two services with a form and a query report that a message was sent exactly where a server
that got the texts themselves answers so, as the JSON library reads the answer. -/
theorem push_iff {Object : Type} (json : Json Object) (hcodec : codec.Lawful) {server : Server}
    (hserver : server.Reads codec) {token : List Byte} (htoken : ∀ b ∈ token, endsPath b = false)
    (qq title message : List Byte) (reply : Option (List (List Byte × List Byte)) → Option (List Byte)) :
    (∀ entrySet, entrySet.Perm (QmsgChan.params qq title message) →
      (QmsgChan.push codec (fun sent => reply (server.fields sent)) json token entrySet = some true ↔
        ∃ text object, reply (some entrySet) = some text ∧ text ≠ [] ∧ json.parseObject text = some (some object) ∧
          json.getBooleanValue object "success" = some true)) ∧
    (ServerChan.push codec (fun sent => reply (server.fields sent)) json token title message = some true ↔
      ∃ text object, reply (some (queryParams title message)) = some text ∧ text ≠ [] ∧
        json.parseObject text = some (some object) ∧ json.getIntValue object "code" = some 0) := by
  constructor
  · intro entrySet hperm
    have hne : entrySet ≠ [] := by
      rintro rfl
      exact List.cons_ne_nil _ _ (List.nil_perm.mp hperm)
    have hplain : PlainKeys entrySet := by
      have hqq : ∀ b ∈ ascii "qq", isLetter b = true := by decide
      have hmsg : ∀ b ∈ ascii "msg", isLetter b = true := by decide
      intro entry hentry
      have hmem := hperm.mem_iff.mp hentry
      simp only [QmsgChan.params, List.mem_cons, List.not_mem_nil, or_false] at hmem
      rcases hmem with rfl | rfl
      · exact hqq
      · exact hmsg
    obtain ⟨sent, hsent, hfields⟩ := fieldsOf_form hcodec hne hplain token
    have hpush : QmsgChan.push codec (fun sent => reply (server.fields sent)) json token entrySet =
        isAccepted json (fun responseJson => json.getBooleanValue responseJson "success") (reply (some entrySet)) := by
      rw [QmsgChan.push, hsent, ← hserver.fields sent entrySet hfields]
      rfl
    rw [hpush, isAccepted_iff]
  · rw [ServerChan.push, hserver.fields _ _ (fieldsOf_query hcodec htoken title message)]
    exact isAccepted_isZero json _

/-- The server that gets what there is and nothing else. -/
def Server.exact (codec : Codec) : Server := ⟨fieldsOf codec, textOf codec⟩

theorem Server.reads_exact (codec : Codec) : (Server.exact codec).Reads codec := ⟨fun _ _ h => h, fun _ _ h => h⟩

/-- The text `1` for an object, with 1 for the success and no code. -/
def one : Json Unit where
  parseObject text := if text = ascii "1" then some (some ()) else none
  getBooleanValue _ key := some (key = "success")
  getIntValue _ _ := some 0

/-- A server that answers where it got the texts, which have all kinds of separators. -/
theorem push_iff_reserved :
    QmsgChan.push standard (fun sent => if (Server.exact standard).fields sent =
          some [(ascii "msg", ascii "a b|c&d=?"), (ascii "qq", ascii "7")] then some (ascii "1") else none)
        one (ascii "key") [(ascii "msg", ascii "a b|c&d=?"), (ascii "qq", ascii "7")] = some true ∧
    ServerChan.push standard (fun sent => if (Server.exact standard).fields sent =
          some (queryParams (ascii "a b") (ascii "c&d=?")) then some (ascii "1") else none)
        one (ascii "key") (ascii "a b") (ascii "c&d=?") = some true := by
  have hone : one.parseObject (ascii "1") = some (some ()) := by simp [one]
  have hpush := push_iff one lawful_standard (Server.reads_exact standard)
    (show ∀ b ∈ ascii "key", endsPath b = false by decide)
    (ascii "7") (ascii "a b") (ascii "c&d=?")
  constructor
  · exact ((hpush fun read => if read = some [(ascii "msg", ascii "a b|c&d=?"), (ascii "qq", ascii "7")] then
        some (ascii "1") else none).1 _ (List.Perm.swap _ _ _)).mpr
      ⟨ascii "1", (), if_pos rfl, List.cons_ne_nil _ _, hone, rfl⟩
  · exact (hpush fun read => if read = some (queryParams (ascii "a b") (ascii "c&d=?")) then
        some (ascii "1") else none).2.mpr
      ⟨ascii "1", (), if_pos rfl, List.cons_ne_nil _ _, hone, rfl⟩

/-! ### Paths -/

theorem segment_append {host rest : List Byte} (hhost : ∀ b ∈ host, endsPath b = false)
    (hpath : ∀ b ∈ rest, endsPath b = false) (hrest : byte '/' ∉ rest) :
    segment (host ++ byte '/' :: rest) = rest := by
  have hwhole : ∀ b ∈ host ++ byte '/' :: rest, (!endsPath b) = true := by
    intro b hb
    rw [Bool.not_eq_true']
    rcases List.mem_append.mp hb with hb | hb
    · exact hhost b hb
    · rcases List.mem_cons.mp hb with rfl | hb
      · decide
      · exact hpath b hb
  have hlast : ∀ b ∈ rest.reverse, decide (b ≠ byte '/') = true := fun b hb =>
    decide_eq_true fun heq => hrest (heq ▸ List.mem_reverse.mp hb)
  rw [segment, List.takeWhile_eq_self_iff.mpr hwhole, List.rtakeWhile, List.reverse_append, List.reverse_cons,
    List.append_assoc, List.takeWhile_append_of_pos hlast, List.singleton_append,
    List.takeWhile_cons_of_neg (by simp), List.append_nil, List.reverse_reverse]

theorem textOf_path (hcodec : codec.Lawful) {token : List Byte} (htoken : ∀ b ∈ token, endsPath b = false)
    (title message : List Byte) :
    textOf codec (TgChan.request codec token title message) =
      codec.decode (byte '+') (codec.encode (title ++ ascii ":" ++ message)) := by
  have hhost : ∀ b ∈ ascii "https://dianbao.vercel.app/send/" ++ token, endsPath b = false := by
    have hstart : ∀ b ∈ ascii "https://dianbao.vercel.app/send/", endsPath b = false := by decide +kernel
    exact fun b hb => (List.mem_append.mp hb).elim (hstart b) (htoken b)
  have hpath : ∀ b ∈ codec.encode (title ++ ascii ":" ++ message), endsPath b = false := by
    intro b hb
    have hquestion : b ≠ byte '?' := fun heq => hcodec.not_mem_encode rfl _ (heq ▸ hb)
    have hfragment : b ≠ byte '#' := fun heq => hcodec.not_mem_encode rfl _ (heq ▸ hb)
    simp [endsPath, hquestion, hfragment]
  have hslash : byte '/' ∉ codec.encode (title ++ ascii ":" ++ message) := hcodec.not_mem_encode rfl _
  have hascii : ascii "/" = [byte '/'] := rfl
  unfold TgChan.request textOf
  dsimp only
  rw [hascii, List.append_assoc _ [byte '/'], List.singleton_append, segment_append hhost hpath hslash]

/-- From the path a server gets the texts with a plus sign for each blank, so that it gets the texts
themselves only where there is no blank in them. The service reports that a message was sent where
a server that got this answers so. -/
theorem text_received {Object : Type} (json : Json Object) (hcodec : codec.Lawful) {server : Server}
    (hserver : server.Reads codec) {token : List Byte} (htoken : ∀ b ∈ token, endsPath b = false)
    (title message : List Byte) :
    server.text (TgChan.request codec token title message) =
      some ((title ++ ascii ":" ++ message).map fun b => if b = byte ' ' then byte '+' else b) ∧
    (server.text (TgChan.request codec token title message) = some (title ++ ascii ":" ++ message) ↔
      byte ' ' ∉ title ∧ byte ' ' ∉ message) ∧
    ∀ reply : Option (List Byte) → Option (List Byte),
      (TgChan.push codec (fun sent => reply (server.text sent)) json token title message = some true ↔
        ∃ text object, reply (some ((title ++ ascii ":" ++ message).map fun b =>
            if b = byte ' ' then byte '+' else b)) = some text ∧ text ≠ [] ∧
          json.parseObject text = some (some object) ∧ json.getIntValue object "code" = some 0) := by
  have hplus : byte '+' ≠ byte ' ' := by decide
  have hcolon : byte ' ' ∉ ascii ":" := by decide
  have hread := hcodec.decode_encode (byte '+') (title ++ ascii ":" ++ message)
  have htext := hserver.text _ _ ((textOf_path hcodec htoken title message).trans hread)
  refine ⟨htext, ?_, fun reply => ?_⟩
  · rw [htext, ← hread, hcodec.decode_encode_iff hplus]
    simp [hcolon]
  · rw [TgChan.push, htext]
    exact isAccepted_isZero json _

theorem text_received_blank :
    (Server.exact standard).text (TgChan.request standard (ascii "key") (ascii "a b") (ascii "c/d")) =
        some (ascii "a+b:c/d") ∧
      (Server.exact standard).text (TgChan.request standard (ascii "key") (ascii "a b") (ascii "c/d")) ≠
        some (ascii "a b:c/d") ∧
      TgChan.push standard (fun sent => if (Server.exact standard).text sent = some (ascii "a+b:c/d") then
          some (ascii "1") else none) one (ascii "key") (ascii "a b") (ascii "c/d") = some true := by
  have hone : one.parseObject (ascii "1") = some (some ()) := by simp [one]
  obtain ⟨htext, hblank, hpush⟩ := text_received one lawful_standard (Server.reads_exact standard)
    (show ∀ b ∈ ascii "key", endsPath b = false by decide) (ascii "a b") (ascii "c/d")
  refine ⟨htext, fun h => (hblank.mp h).1 (by decide), ?_⟩
  exact (hpush fun read => if read = some (ascii "a+b:c/d") then some (ascii "1") else none).mpr
    ⟨ascii "1", (), if_pos rfl, List.cons_ne_nil _ _, hone, rfl⟩

end

end Notification
end PGCon
