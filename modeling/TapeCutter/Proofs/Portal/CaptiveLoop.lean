import TapeCutter.Proofs.Dns.Replies
import TapeCutter.Proofs.Portal.Visits

/-! The way of a device to the front page. Every name it asks for has the address of the
portal, every redirect of the portal leads to its front page, and the front page redirects
nobody. All three parts of the machine go by the one address of the settings. -/
namespace TapeCutter

/-- The URL of a front page, by the bytes of its address. -/
def urlText (bytes : List UInt8) : String :=
  "http://" ++ ".".intercalate (bytes.map fun byte => Text.decimal byte.toNat) ++ "/"

namespace Address

/-- The URL is never cut: it is at most as long as the room there is for it. -/
theorem text_url (address : Address) : address.url.text = urlText address.bytes := by
  have hA := Text.utf8ByteSize_decimal_byte address.a
  have hB := Text.utf8ByteSize_decimal_byte address.b
  have hC := Text.utf8ByteSize_decimal_byte address.c
  have hD := Text.utf8ByteSize_decimal_byte address.d
  have hScheme : "http://".utf8ByteSize = 7 := by decide
  have hPoint : ".".utf8ByteSize = 1 := by decide
  have hSlash : "/".utf8ByteSize = 1 := by decide
  rw [url, Text.Bounded.text_ofPieces]
  · simp [urlText, bytes, String.join_eq_foldl, String.intercalate_cons_cons, String.append_assoc]
  · simp only [String.join_cons, String.join_nil, String.utf8ByteSize_append,
      String.utf8ByteSize_empty, hScheme, hPoint, hSlash]
    omega

theorem urlText_bytes (address : Address) :
    urlText address.bytes = "http://" ++ address.host ++ "/" := by
  simp [urlText, bytes, host, String.intercalate_cons_cons, String.append_assoc]

/-- A host is made of digits and points. -/
theorem isDigit_or_eq_of_mem_host {address : Address} {c : Char}
    (hMem : c ∈ address.host.toList) : c.isDigit = true ∨ c = '.' := by
  simp only [host, String.toList_append, Text.toList_decimal, List.mem_append] at hMem
  have hPoint : ∀ {c : Char}, c ∈ ".".toList → c = '.' := List.mem_singleton.mp
  rcases hMem with (((((hA | hP) | hB) | hP) | hC) | hP) | hD
  · exact Or.inl (Text.isDigit_of_mem_digits hA)
  · exact Or.inr (hPoint hP)
  · exact Or.inl (Text.isDigit_of_mem_digits hB)
  · exact Or.inr (hPoint hP)
  · exact Or.inl (Text.isDigit_of_mem_digits hC)
  · exact Or.inr (hPoint hP)
  · exact Or.inl (Text.isDigit_of_mem_digits hD)

/-- The points of a host part the numerals of its bytes. -/
theorem splitOn_host (address : Address) :
    address.host.toList.splitOn '.' =
      address.bytes.map fun byte => Text.digits byte.toNat := by
  have hPoint : ∀ n : Nat, '.' ∉ Text.digits n := Text.not_mem_digits (by decide)
  have hChars : address.host.toList = Text.digits address.a.toNat ++ '.' ::
      (Text.digits address.b.toNat ++ '.' ::
        (Text.digits address.c.toNat ++ '.' :: Text.digits address.d.toNat)) := by
    simp [host, Text.toList_decimal]
  rw [hChars, List.splitOn_append_cons_self_of_not_mem (hPoint _),
    List.splitOn_append_cons_self_of_not_mem (hPoint _),
    List.splitOn_append_cons_self_of_not_mem (hPoint _), List.splitOn_eq_singleton (hPoint _)]
  rfl

/-- The points keep the numerals apart, so no two addresses have the same host. -/
theorem host_injective {address other : Address} (hHost : address.host = other.host) :
    address = other := by
  have hParts := address.splitOn_host
  rw [hHost, other.splitOn_host] at hParts
  have hBytes : other.bytes = address.bytes :=
    (List.map_inj_right fun _ _ hDigits => UInt8.toNat_inj.mp (Text.digits_injective hDigits)).mp
      hParts
  obtain ⟨a, b, c, d⟩ := address
  obtain ⟨a', b', c', d'⟩ := other
  simpa [bytes, eq_comm] using hBytes

theorem url_injective {address other : Address} (hUrl : address.url = other.url) :
    address = other := by
  have hText := congrArg Text.Bounded.text hUrl
  simp only [text_url, urlText_bytes] at hText
  refine host_injective (String.toList_inj.mp ?_)
  simpa using congrArg String.toList hText

end Address

namespace Portal

/-- The visit that a browser makes at this URL. One without a path goes to the front page. -/
def Visit.ofUrl? (url : String) : Option Visit :=
  ("http://".toList.isPrefixOf? url.toList).map fun rest =>
    ⟨String.ofList (upTo '/' rest), String.ofList ('/' :: after '/' rest)⟩

/-- The front page of the portal at this address. -/
def Visit.home (address : Address) : Visit := ⟨address.host, "/"⟩

/-- The URL of a portal leads to its front page. -/
theorem Visit.ofUrl?_home (address : Address) : ofUrl? address.url.text = some (home address) := by
  have hSlash : '/' ∉ address.host.toList := fun hMem => by
    rcases Address.isDigit_or_eq_of_mem_host hMem with hDigit | hPoint
    · simp at hDigit
    · simp at hPoint
  have hRest : "http://".toList.isPrefixOf? address.url.text.toList =
      some (address.host.toList ++ ['/']) := by
    rw [List.isPrefixOf?_eq_some_iff_append_eq, address.text_url, address.urlText_bytes]
    simp
  rw [ofUrl?, hRest]
  simp [upTo_append_cons hSlash, after_append_cons hSlash, home]

/-- Where devices are sent that ask for `/connecttest.txt`. -/
def logoutUrl : String := "http://logout.net"

/-- No request for the front page is redirected; it shows a page to everybody whose host does not
turn them away. -/
theorem reply_frontPage (portal : Portal) {visit : Visit} (hTarget : visit.target = "/")
    (hWelcome : ¬ visit.TurnedAway) :
    portal.reply visit = .page (if portal.opened then .success else .captive) := by
  have hPath : visit.path = "/" := by
    rw [Visit.path, Visit.request, hTarget]
    rfl
  have hPlain : ¬ visit.Redirected := by
    have hNone : ∀ request : Request, request.query = "" → ¬ request.Gives "redirect" := by
      intro request hQuery
      rw [Request.Gives, hQuery]
      decide
    refine hNone _ ?_
    rw [Visit.request, hTarget]
    rfl
  rw [reply_eq, if_pos hPath, front, if_neg hWelcome, if_neg hPlain]
  split <;> rfl

/-- Nobody is turned away at the address itself: it has no letters. -/
theorem Visit.not_turnedAway_home (address : Address) : ¬ (home address).TurnedAway := by
  intro hTurned
  have hMem : 'c' ∈ address.host.toList := hTurned.subset (by decide)
  rcases Address.isDigit_or_eq_of_mem_host hMem with hDigit | hPoint
  · simp at hDigit
  · simp at hPoint

/-- A location has room for a URL of the portal. -/
theorem text_ofPieces_url (url : Text.Bounded 24) :
    (Text.Bounded.ofPieces [url.text] : Text.Bounded 32).text = url.text :=
  Text.Bounded.text_ofPieces_singleton (Nat.le_trans url.fits (by decide))

/-- A redirect leads to the front page at the address of the portal, or at one name. -/
theorem redirect_cases {portal : Portal} {visit : Visit} {location : Text.Bounded 32}
    (hReply : portal.reply visit = .redirect location) :
    location.text = portal.url.text ∨
      visit.path = "/connecttest.txt" ∧ location.text = logoutUrl := by
  rw [reply_eq] at hReply
  split at hReply
  · unfold front at hReply
    split_ifs at hReply
  · unfold elsewhere redirectTo at hReply
    split_ifs at hReply
    · rename_i hConnect
      cases hReply
      exact Or.inr ⟨hConnect, Text.Bounded.text_ofPieces_singleton (by decide)⟩
    · cases hReply
      exact Or.inl (text_ofPieces_url portal.url)

/-- The paths where something else is found than a redirect to the front page. -/
def ownPaths : List String :=
  ["/", "/status.json", "/connecttest.txt", "/wpad.dat", "/favicon.ico", "/success.txt"]

/-- A path that nothing has been put at leads to the front page. -/
theorem reply_elsewhere {portal : Portal} {visit : Visit} (hPath : visit.path ∉ ownPaths) :
    portal.reply visit = redirectTo portal.url.text := by
  simp only [ownPaths, List.mem_cons, List.not_mem_nil, or_false, not_or] at hPath
  simp [reply_eq, elsewhere, hPath]

/-- From any redirect a browser comes to the front page, and whatever others do in the meantime
it is shown a page there. -/
theorem exists_page_of_redirect {portal : Portal} {address : Address} {visit : Visit}
    {location : Text.Bounded 32} (hHome : portal.url = address.url)
    (hReply : portal.reply visit = .redirect location) :
    ∃ next, Visit.ofUrl? location.text = some next ∧
      ∀ later : Portal, ∃ page, later.reply next = .page page := by
  rcases redirect_cases hReply with hUrl | ⟨-, hUrl⟩
  · refine ⟨.home address, ?_, fun later =>
      ⟨_, later.reply_frontPage rfl (Visit.not_turnedAway_home address)⟩⟩
    rw [hUrl, hHome, Visit.ofUrl?_home]
  · refine ⟨⟨"logout.net", "/"⟩, ?_, fun later => ⟨_, later.reply_frontPage rfl (by decide)⟩⟩
    rw [hUrl]
    decide

/-- One address goes through the whole machine. Its URL is written in full, in numerals that no
other address has. Every reply to a question for an address gives the bytes of this URL. A
browser that follows the URL asks for the front page and gets a page there, however far others
have come, so that from no redirect of the portal it ever comes to another one. -/
theorem captive_loop_closes (network : NetworkSettings) :
    let address := network.address
    let home := Visit.home address
    (address.url.text = urlText address.bytes ∧
      (∀ byte ∈ address.bytes, Text.IsNumeral (Text.decimal byte.toNat) byte.toNat) ∧
      ∀ other : Address, other.url = address.url → other = address) ∧
    (∀ (buffer packet : List UInt8) (length : Nat) (written : List UInt8),
      Dns.replyInto buffer packet address network.answerLifetime = .ok (length, written) →
      ∃ query message,
        Dns.Query.read packet = .ok query ∧
        Dns.Message.read? (written.take length) = some message ∧
        (message.answers ≠ [] ↔ ∃ question, query = .standard question ∧ question.asksAddress) ∧
        ∀ record ∈ message.answers,
          record.kind = Dns.addressKind ∧ record.data = address.bytes) ∧
    Visit.ofUrl? address.url.text = some home ∧
    (∀ portal : Portal, portal.reply home = .page (if portal.opened then .success else .captive)) ∧
    ∀ (before : List Visit) (visit : Visit),
      let portal := (ofSettings network).visited before
      (visit.path ∉ ownPaths →
        ∃ location, portal.reply visit = .redirect location ∧
          location.text = address.url.text) ∧
      ∀ location, portal.reply visit = .redirect location →
        (location.text = address.url.text ∨
          visit.path = "/connecttest.txt" ∧ location.text = logoutUrl) ∧
        ∃ next, Visit.ofUrl? location.text = some next ∧
          ∀ later : Portal, ∃ page, later.reply next = .page page := by
  intro address home
  refine ⟨⟨address.text_url, fun byte _ => Text.isNumeral_decimal byte.toNat,
    fun other => Address.url_injective⟩, ?_, Visit.ofUrl?_home address, ?_, ?_⟩
  · intro buffer packet length written hInto
    obtain ⟨query, hQuery, hReply⟩ :=
      Dns.isReply_of_replyInto buffer address network.answerLifetime hInto
    obtain ⟨message, hRead, hAsked, hAnswers⟩ := hReply.answers
    exact ⟨query, message, hQuery, hRead, hAsked, hAnswers⟩
  · exact fun portal => portal.reply_frontPage rfl (Visit.not_turnedAway_home address)
  · intro before visit portal
    have hUrl : portal.url = address.url := by
      rw [show portal = _ from visited_eq _ _]
      rfl
    refine ⟨fun hPath => ⟨_, reply_elsewhere hPath, ?_⟩, fun location hReply => ?_⟩
    · rw [← hUrl]
      exact text_ofPieces_url portal.url
    · exact ⟨hUrl ▸ redirect_cases hReply, exists_page_of_redirect hUrl hReply⟩

end Portal

end TapeCutter
