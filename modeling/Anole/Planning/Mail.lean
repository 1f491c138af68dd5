import Anole.Common.Occurrences
import Anole.Mail.Sanitizer
import Anole.Planning.PdfCommand

/-!
# Plans of mail

Model of the planners of EML, MSG and MBOX exports (`crates/core/src/eml.rs`, lines 109–151, 179–200
and 423–507; `msg.rs`, lines 191–334; `mbox.rs`, lines 426–473 and 508–630), which refuse a mail
whose HTML refers to something remote.

Main result:

* `remote_gate_iff`: when the sanitizer would remove a remote address from a body, the planners
  refuse the mail exactly if some address in the body is compact: it follows its `src=` or
  `href=`, with one quote at most and no line break in between.

**Deviation.** `contains_remote_reference` looks for `src=` and `href=` in the raw text; an
attribute may have spaces around its `=` and a line break before the address, which the
sanitizer takes for what they are.
-/

open Common Anole.Common

namespace Anole.Planning

/-! ## The detector -/

/-- The markers of `contains_remote_reference`, in its order. -/
def referenceMarkers : List String := ["src=\"", "src='", "href=\"", "href='", "src=", "href="]

def isBlank (c : Char) : Bool := c = ' ' || c = '\t'

def schemes : List String := ["http://", "https://", "//"]

/-- What follows a marker begins with a remote address. -/
def startsRemote (rest : List Char) : Bool :=
  schemes.any fun scheme => scheme.toList.isPrefixOf (rest.dropWhile isBlank)

/-- `contains_remote_reference` (`eml.rs`, lines 179–200). -/
def containsRemoteReference (html : List Char) : Bool :=
  let lowered := lowercase html
  referenceMarkers.any fun marker =>
    anyAfter startsRemote marker.toList (lowered.length + 1) lowered

/-! ## Inspection -/

/-- `ParsedEmail`. -/
structure ParsedEmail where
  sender : Option String
  recipient : Option String
  subject : Option String
  date : Option String
  plainBody : Option String
  htmlBody : Option String

/-- What is not modelled: the text of an HTML document (`document.rs`, `html_text`) and its
    normal form for comparison (`normalized_tokens`). -/
structure MailTools (φ : Type) where
  planner : PlannerTools φ
  htmlText : String → Option String
  normalizedTokens : String → String

section Properties

variable {φ : Type} (tools : MailTools φ)

/-- `ParsedEmail::visible_text`. -/
def visibleText (email : ParsedEmail) : String :=
  match email.plainBody with
  | some plain => plain
  | none => (email.htmlBody.bind tools.htmlText).getD ""

/-- `email.html_body.as_deref().is_some_and(contains_remote_reference)`. -/
def refersRemote (email : ParsedEmail) : Bool :=
  email.htmlBody.any fun html => containsRemoteReference html.toList

/-- The properties of a text. -/
def textProperties (text : String) (hasExternalResource : Bool) : List (String × Json) :=
  let normalized := tools.normalizedTokens text
  [("semantic_token_digest", .string ("blake3:" ++ tools.planner.blake3Text normalized)),
    ("text_characters", .natural normalized.toList.length),
    ("has_external_resource", .bool hasExternalResource)]

/-- `inspect_eml_properties` (`eml.rs`, lines 113–150) of a parsed mail, which is also
    `msg_properties` (`msg.rs`, lines 191–227). -/
def emailProperties (email : ParsedEmail) : TextMap Json :=
  TextMap.ofList ((email.sender.map fun value => ("eml_from", Json.string value)).toList ++
    (email.recipient.map fun value => ("eml_to", Json.string value)).toList ++
    (email.subject.map fun value => ("eml_subject", Json.string value)).toList ++
    (email.date.map fun value => ("eml_date", Json.string value)).toList ++
    textProperties tools (visibleText tools email) (refersRemote email))

/-- `mbox_properties` (`mbox.rs`, lines 426–473); `variant` is the name of the variant. -/
def mboxProperties (mails : List ParsedEmail) (variant : String) : TextMap Json :=
  TextMap.ofList ([("mail_count", Json.natural mails.length), ("mbox_variant", .string variant),
      ("variant_basis", .string (if variant = "mboxcl" then "content-length-header" else "assumed"))] ++
    (mails.head?.bind fun first => first.subject.map fun value => ("eml_subject", Json.string value)).toList ++
    textProperties tools (String.intercalate "\n" (mails.map (visibleText tools)))
      (mails.any refersRemote))

end Properties

/-- The fields of a `Probe` of mail that a planner reads; the properties are those of its one
    stream. -/
structure MailProbe where
  artifact : ArtifactIdentity
  formatId : String
  properties : TextMap Json

/-- `property(probe, "has_external_resource") == json!(true)`. -/
def MailProbe.hasExternalResource (probe : MailProbe) : Bool :=
  match probe.properties.lookup "has_external_resource" with
  | some (.bool value) => value
  | _ => false

/-- `stream_property(probe, "mail_count").as_u64().unwrap_or_default()`. -/
def MailProbe.mailCount (probe : MailProbe) : ℕ :=
  match probe.properties.lookup "mail_count" with
  | some (.number value) => value.toNat
  | _ => 0

/-! ## Planners -/

section Planners

variable {φ : Type} (tools : PlannerTools φ)

/-- `unsupported` (`eml.rs`, lines 683–690). -/
def emlUnsupported (message : String) : AnoleError :=
  .new .unsupported .plan message "Use an .eml input and a txt or html target."

/-- The error of the gate on remote references, whose message names the input. -/
def remoteBlocked (what : String) : AnoleError :=
  .new .policyBlocked .plan (what ++ " references an external resource under deny-all policy")
    "Remove the remote image/link or wait for an explicitly authorized resource-root policy."

/-- `plan_eml_export` (lines 423–507). -/
def planEmlExport (probe : MailProbe) (outputPath : PathBuf) (engine : EngineIdentity)
    (target : String) (planId : Uuid) : Except AnoleError Plan := do
  let target := normalizedTarget target
  failIf (probe.formatId ≠ "eml") (emlUnsupported "EML export input must be an .eml message")
  failIf (target ∉ ["txt", "html", "md"]) (emlUnsupported "EML export target must be txt, html, or md")
  failIf (engine.engineId ≠ "anole.eml")
    (.new .engineIncompatible .plan "The EML export Plan was given the wrong engine"
      "Use the built-in anole.eml adapter.")
  failIf (probe.hasExternalResource = true) (remoteBlocked "The email HTML body")
  let arguments := TextMap.ofList [("source_format", "eml"), ("target_format", target),
    ("network", "deny"), ("sanitize_html", "true")]
  let changes : ChangeSet := {
    preserved := ["decoded From/To/Subject/Date headers", "normalized textual content"]
    changed := ["the email is re-serialized as a standalone document"]
    dropped := ["attachments and non-text MIME parts", "scripts, event handlers, and remote resources"]
    unknown := ["visual fidelity of the original HTML"] }
  pure (singleStepPlan tools planId probe.artifact.fastFingerprint target
    (TextMap.ofList [("network", .string "deny"), ("external_resources", .string "deny"),
      ("scripts", .string "stripped")])
    s!"anole.eml.eml-to-{target}.builtin" engine .transform .unknown arguments
    (saturatingMul probe.artifact.sizeBytes 2) changes
    ["document.text-extractable", "eml.headers-present"] outputPath none)

/-- `plan_msg_export` (`msg.rs`, lines 245–334). -/
def planMsgExport (probe : MailProbe) (outputPath : PathBuf) (engine : EngineIdentity)
    (target : String) (planId : Uuid) : Except AnoleError Plan := do
  let target := normalizedTarget target
  failIf (probe.formatId ≠ "msg")
    (.new .unsupported .plan "MSG export input must be an Outlook .msg message"
      "Choose a message exported by Outlook as .msg.")
  failIf (target ∉ ["txt", "html", "md"])
    (.new .unsupported .plan "MSG export target must be txt, html, or md"
      "Choose txt, html, or md; other targets compose through chains.")
  failIf (engine.engineId ≠ "anole.msg")
    (.new .engineIncompatible .plan "The MSG export Plan was given the wrong engine"
      "Use the built-in anole.msg adapter.")
  failIf (probe.hasExternalResource = true) (remoteBlocked "The MSG HTML body")
  let arguments := TextMap.ofList [("source_format", "msg"), ("target_format", target),
    ("intermediate", "rfc822-eml"), ("network", "deny"), ("sanitize_html", "true"),
    ("attachments", "drop")]
  let changes : ChangeSet := {
    preserved := ["decoded From/Subject/Date headers", "normalized textual content"]
    changed := ["the Outlook message renders as a standalone document"]
    dropped := ["Outlook-specific properties, recipient tables, and attachments",
      "scripts, event handlers, and remote resources"]
    unknown := ["visual fidelity of the original HTML"] }
  pure (singleStepPlan tools planId probe.artifact.fastFingerprint target
    (TextMap.ofList [("network", .string "deny"), ("external_resources", .string "deny"),
      ("scripts", .string "stripped"), ("attachments", .string "drop")])
    s!"anole.msg.msg-to-{target}.builtin" engine .transform .unknown arguments
    (saturatingMul probe.artifact.sizeBytes 2) changes
    ["document.text-extractable", "eml.headers-present"] outputPath none)

/-- The step of `plan_mbox_export` that merges the mails of a PDF. -/
def mboxMergeStep (probe : MailProbe) (qpdf : EngineIdentity) : PlanStep where
  stepId := "step-2"
  capabilityId := "qpdf.mbox-merge.all-mails"
  engine := qpdf
  operation := .transform
  lossClass := .none
  arguments := TextMap.ofList [("merge_mode", "concatenate-1-z"), ("mail_count", toString probe.mailCount)]
  estimatedTemporaryBytes := some (saturatingMul probe.artifact.sizeBytes 6)

/-- `plan_mbox_export` (`mbox.rs`, lines 508–630). -/
def planMboxExport (probe : MailProbe) (outputPath : PathBuf) (engine qpdf : EngineIdentity)
    (target : String) (planId : Uuid) : Except AnoleError Plan := do
  let target := normalizedTarget target
  failIf (probe.formatId ≠ "mbox")
    (.new .unsupported .plan "MBOX export input must be an mbox mailbox"
      "Choose a file in mbox/mboxo/mboxrd/mboxcl format.")
  failIf (target ∉ ["txt", "html", "pdf", "md"])
    (.new .unsupported .plan "MBOX export target must be txt, html, md, or pdf"
      "Choose txt, html, md, or the whole-mailbox pdf.")
  failIf (engine.engineId ≠ "anole.mbox")
    (.new .engineIncompatible .plan "The MBOX export Plan was given the wrong engine"
      "Use the built-in anole.mbox adapter.")
  failIf (probe.hasExternalResource = true) (remoteBlocked "A mail in the MBOX")
  failIf (target = "pdf" ∧ qpdf.engineId ≠ "qpdf")
    (.new .engineIncompatible .plan "The MBOX merge step was given the wrong engine"
      "Run doctor and use qpdf.")
  let rendering : PlanStep := {
    stepId := "step-1"
    capabilityId := s!"anole.mbox.mbox-render-{target}.builtin"
    engine := engine
    operation := .transform
    lossClass := .unknown
    arguments := TextMap.ofList [("source_format", "mbox"), ("target_format", target),
      ("mail_count", toString probe.mailCount), ("network", "deny"), ("sanitize_html", "true")]
    estimatedTemporaryBytes := some (saturatingMul probe.artifact.sizeBytes 4) }
  pure (Plan.hashed tools {
    schemaVersion := 1
    planId := planId
    planHash := ""
    inputFingerprint := probe.artifact.fastFingerprint
    targetFormat := target
    constraints := TextMap.ofList [("network", .string "deny"), ("external_resources", .string "deny"),
      ("scripts", .string "stripped"), ("mail_count", .natural probe.mailCount)]
    steps := rendering :: (if target = "pdf" then [mboxMergeStep probe qpdf] else [])
    changes := {
      preserved := ["every mail, in original order", "normalized textual content"]
      changed := ["the mailbox renders as one " ++ (if target = "pdf" then "PDF" else target) ++ " document"]
      dropped := ["attachments and non-text MIME parts", "scripts, event handlers, and remote resources"]
      unknown := ["visual fidelity of the original HTML"] }
    validators := ["document.text-extractable", "mbox.mail-separators"] ++
      (if target = "pdf" then ["mbox.page-conservation"] else [])
    networkPolicy := .deny
    outputPath := some outputPath
    estimatedOutputBytes := none })

end Planners

/-! ## What the sanitizer removes -/

/-- `push_sanitized_attributes` removes an attribute as remote. -/
def removedAsRemote (attr : Attribute) : Bool :=
  isAddressKey (lowercase attr.key) && isRemoteUrl attr.value

/-- The attributes of the elements on which `try_sanitize_html` calls `push_sanitized_attributes`,
    up to an error of the tokenizer. -/
def pushedAttributes : ℕ → List HtmlEvent → List Attribute
  | _, [] => []
  | depth, event :: events =>
    match event with
    | .failed _ => []
    | .start name attributes | .empty name attributes =>
      (if isScript name ∨ depth > 0 then [] else attributes.reduceOption) ++
        pushedAttributes (depthAfter depth event) events
    | _ => pushedAttributes (depthAfter depth event) events

/-- Some element of a body has an attribute that is removed as remote. -/
def RemovesRemote (read : List Char → List HtmlEvent) (body : List Char) : Prop :=
  ∃ attr ∈ pushedAttributes 0 (read body), removedAsRemote attr = true

/-- Somewhere in a body, in whatever case, an address follows its `src=` or `href=` with one quote at
    most, spaces and tabs in between. -/
def CompactReference (body : List Char) : Prop :=
  ∃ before name quote blanks scheme rest, name ∈ ["src=", "href="] ∧ quote ∈ ["", "\"", "'"] ∧
    (∀ c ∈ blanks, isBlank c = true) ∧ scheme ∈ schemes ∧
    lowercase body = before ++ name.toList ++ quote.toList ++ blanks ++ scheme.toList ++ rest

/-! ## The detector -/

/-- What follows a marker begins with a remote address after blanks. -/
theorem startsRemote_iff {rest : List Char} :
    startsRemote rest = true ↔ ∃ blanks scheme after, (∀ c ∈ blanks, isBlank c = true) ∧
      scheme ∈ schemes ∧ rest = blanks ++ scheme.toList ++ after := by
  rw [startsRemote, List.any_eq_true]
  constructor
  · rintro ⟨scheme, hscheme, hprefix⟩
    obtain ⟨after, hafter⟩ := List.isPrefixOf_iff_prefix.mp hprefix
    refine ⟨rest.takeWhile isBlank, scheme, after, fun c hc => List.mem_takeWhile_imp hc, hscheme, ?_⟩
    rw [List.append_assoc, hafter, List.takeWhile_append_dropWhile]
  · rintro ⟨blanks, scheme, after, hblanks, hscheme, rfl⟩
    refine ⟨scheme, hscheme, ?_⟩
    rw [List.append_assoc, List.dropWhile_append_of_pos hblanks]
    have hhead : (scheme.toList ++ after).dropWhile isBlank = scheme.toList ++ after := by
      simp only [schemes, List.mem_cons, List.not_mem_nil, or_false] at hscheme
      rcases hscheme with rfl | rfl | rfl <;> rfl
    rw [hhead]
    exact List.isPrefixOf_iff_prefix.mpr (List.prefix_append ..)

/-- The detector finds the compact references, and nothing else. -/
theorem containsRemoteReference_iff {body : List Char} :
    containsRemoteReference body = true ↔ CompactReference body := by
  have hfirst : ∀ marker ∈ referenceMarkers, ∃ c tail, marker.toList = c :: tail ∧ c ∉ tail := by
    intro marker hmarker
    simp only [referenceMarkers, List.mem_cons, List.not_mem_nil, or_false] at hmarker
    rcases hmarker with rfl | rfl | rfl | rfl | rfl | rfl <;> exact ⟨_, _, rfl, by decide⟩
  have hfinds : ∀ marker ∈ referenceMarkers,
      (anyAfter startsRemote marker.toList ((lowercase body).length + 1) (lowercase body) = true ↔
        ∃ before rest, lowercase body = before ++ marker.toList ++ rest ∧ startsRemote rest = true) := by
    intro marker hmarker
    obtain ⟨c, tail, hcons, hc⟩ := hfirst marker hmarker
    rw [hcons]
    exact anyAfter_iff hc (Nat.lt_succ_self _)
  rw [containsRemoteReference, List.any_eq_true]
  constructor
  · rintro ⟨marker, hmarker, hfound⟩
    obtain ⟨before, rest, hbody, hremote⟩ := (hfinds marker hmarker).mp hfound
    obtain ⟨blanks, scheme, after, hblanks, hscheme, rfl⟩ := startsRemote_iff.mp hremote
    obtain ⟨name, hname, quote, hquote, hmark⟩ : ∃ name ∈ ["src=", "href="],
        ∃ quote ∈ ["", "\"", "'"], marker.toList = name.toList ++ quote.toList := by
      simp only [referenceMarkers, List.mem_cons, List.not_mem_nil, or_false] at hmarker
      rcases hmarker with rfl | rfl | rfl | rfl | rfl | rfl <;> decide
    refine ⟨before, name, quote, blanks, scheme, after, hname, hquote, hblanks, hscheme, ?_⟩
    rw [hbody, hmark]
    simp only [List.append_assoc]
  · rintro ⟨before, name, quote, blanks, scheme, after, hname, hquote, hblanks, hscheme, hbody⟩
    obtain ⟨marker, hmarker, hmark⟩ : ∃ marker ∈ referenceMarkers,
        marker.toList = name.toList ++ quote.toList := by
      simp only [List.mem_cons, List.not_mem_nil, or_false] at hname hquote
      rcases hname with rfl | rfl <;> rcases hquote with rfl | rfl | rfl <;> decide
    refine ⟨marker, hmarker, (hfinds marker hmarker).mpr ⟨before, blanks ++ scheme.toList ++ after, ?_,
      startsRemote_iff.mpr ⟨blanks, scheme, after, hblanks, hscheme, rfl⟩⟩⟩
    rw [hbody, hmark]
    simp only [List.append_assoc]

/-- A removed attribute is a compact reference when it is written without spaces around its `=`, and
    no line break precedes the address. -/
theorem compactReference_of_tight {attr : Attribute} {before after : List Char} {quote : Char}
    (hremoved : removedAsRemote attr = true) (hquote : quote = '"' ∨ quote = '\'')
    (hblanks : ∀ c ∈ attr.value.takeWhile isTagSpace, isBlank c = true) :
    CompactReference (before ++ attr.key ++ '=' :: quote :: attr.value ++ after) := by
  rw [removedAsRemote, Bool.and_eq_true] at hremoved
  obtain ⟨hkey, hremote⟩ := hremoved
  obtain ⟨front, name, hname, hlower⟩ : ∃ front, ∃ name ∈ ["src=", "href="],
      lowercase attr.key ++ ['='] = front ++ name.toList := by
    simp only [isAddressKey, Bool.or_eq_true, decide_eq_true_eq] at hkey
    rcases hkey with (hkey | hkey) | hkey <;> rw [hkey]
    · exact ⟨[], "src=", by simp, rfl⟩
    · exact ⟨[], "href=", by simp, rfl⟩
    · exact ⟨"xlink:".toList, "href=", by simp, rfl⟩
  obtain ⟨scheme, hscheme, url, hurl⟩ : ∃ scheme ∈ schemes, ∃ url,
      lowercase (attr.value.dropWhile isTagSpace) = scheme.toList ++ url := by
    simp only [isRemoteUrl, Bool.or_eq_true, List.isPrefixOf_iff_prefix] at hremote
    rcases hremote with (⟨url, hurl⟩ | ⟨url, hurl⟩) | ⟨url, hurl⟩
    · exact ⟨"http://", by simp [schemes], url, hurl.symm⟩
    · exact ⟨"https://", by simp [schemes], url, hurl.symm⟩
    · exact ⟨"//", by simp [schemes], url, hurl.symm⟩
  have hlowerBlanks : lowercase (attr.value.takeWhile isTagSpace) = attr.value.takeWhile isTagSpace := by
    refine (List.map_congr_left fun c hc => ?_).trans (List.map_id _)
    have hc := hblanks c hc
    rw [isBlank, Bool.or_eq_true, decide_eq_true_eq, decide_eq_true_eq] at hc
    rcases hc with rfl | rfl <;> rfl
  refine ⟨lowercase before ++ front, name, String.ofList [quote], attr.value.takeWhile isTagSpace,
    scheme, url ++ lowercase after, hname, ?_, hblanks, hscheme, ?_⟩
  · rcases hquote with rfl | rfl <;> decide
  · have hvalue : lowercase attr.value =
        attr.value.takeWhile isTagSpace ++ (scheme.toList ++ url) := by
      calc lowercase attr.value
          = lowercase (attr.value.takeWhile isTagSpace ++ attr.value.dropWhile isTagSpace) := by
            rw [List.takeWhile_append_dropWhile]
        _ = lowercase (attr.value.takeWhile isTagSpace) ++ lowercase (attr.value.dropWhile isTagSpace) :=
            List.map_append
        _ = _ := by rw [hlowerBlanks, hurl]
    have hlowerQuote : quote.toLower = quote := by rcases hquote with rfl | rfl <;> rfl
    calc lowercase (before ++ attr.key ++ '=' :: quote :: attr.value ++ after)
        = lowercase before ++ (lowercase attr.key ++ ['=']) ++
            quote.toLower :: (lowercase attr.value ++ lowercase after) := by
          simp only [lowercase, List.map_append, List.map_cons, List.append_assoc, List.cons_append,
            List.nil_append]
          rfl
      _ = _ := by
          rw [hlower, hvalue, hlowerQuote, String.toList_ofList]
          simp only [List.append_assoc, List.cons_append, List.nil_append]

/-! ## The gate -/

/-- The planners refuse a mail with this body, when nothing else is wrong with the request. -/
structure RemoteRefused {φ : Type} (tools : MailTools φ) (body : String) : Prop where
  detected : containsRemoteReference body.toList = true
  eml : ∀ email probe outputPath engine target planId, email.htmlBody = some body →
    probe.properties = emailProperties tools email → probe.formatId = "eml" →
    engine.engineId = "anole.eml" → normalizedTarget target ∈ ["txt", "html", "md"] →
    planEmlExport tools.planner probe outputPath engine target planId =
      .error (remoteBlocked "The email HTML body")
  msg : ∀ email probe outputPath engine target planId, email.htmlBody = some body →
    probe.properties = emailProperties tools email → probe.formatId = "msg" →
    engine.engineId = "anole.msg" → normalizedTarget target ∈ ["txt", "html", "md"] →
    planMsgExport tools.planner probe outputPath engine target planId =
      .error (remoteBlocked "The MSG HTML body")
  mbox : ∀ mails variant email probe outputPath engine qpdf target planId, email ∈ mails →
    email.htmlBody = some body → probe.properties = mboxProperties tools mails variant →
    probe.formatId = "mbox" → engine.engineId = "anole.mbox" →
    normalizedTarget target ∈ ["txt", "html", "pdf", "md"] →
    planMboxExport tools.planner probe outputPath engine qpdf target planId =
      .error (remoteBlocked "A mail in the MBOX")

section Gate

variable {φ : Type} {tools : MailTools φ} {email : ParsedEmail} {mails : List ParsedEmail}
  {probe : MailProbe} {body : String}

theorem lookup_textProperties (before : List (String × Json)) (text : String) (external : Bool) :
    (TextMap.ofList (before ++ textProperties tools text external)).lookup "has_external_resource" =
      some (.bool external) := by
  rw [TextMap.lookup_ofList, List.reverse_append]
  rfl

theorem refersRemote_of_body (hbody : email.htmlBody = some body)
    (h : containsRemoteReference body.toList = true) : refersRemote email = true := by
  rw [refersRemote, hbody]
  exact h

theorem hasExternalResource_email (hprobe : probe.properties = emailProperties tools email) :
    probe.hasExternalResource = refersRemote email := by
  rw [MailProbe.hasExternalResource, hprobe, emailProperties, lookup_textProperties]

theorem hasExternalResource_mbox {variant : String}
    (hprobe : probe.properties = mboxProperties tools mails variant) :
    probe.hasExternalResource = mails.any refersRemote := by
  rw [MailProbe.hasExternalResource, hprobe, mboxProperties, lookup_textProperties]

theorem remoteRefused_of_contains (h : containsRemoteReference body.toList = true) :
    RemoteRefused tools body := by
  refine ⟨h, ?_, ?_, ?_⟩
  · intro email probe outputPath engine target planId hbody hprobe hformat hengine htarget
    have hflag : probe.hasExternalResource = true :=
      (hasExternalResource_email hprobe).trans (refersRemote_of_body hbody h)
    rw [planEmlExport]
    simp only [failIf, hformat, hengine, htarget, hflag, not_true_eq_false, ne_eq, if_false, if_true]
    rfl
  · intro email probe outputPath engine target planId hbody hprobe hformat hengine htarget
    have hflag : probe.hasExternalResource = true :=
      (hasExternalResource_email hprobe).trans (refersRemote_of_body hbody h)
    rw [planMsgExport]
    simp only [failIf, hformat, hengine, htarget, hflag, not_true_eq_false, ne_eq, if_false, if_true]
    rfl
  · intro mails variant email probe outputPath engine qpdf target planId hmem hbody hprobe hformat
      hengine htarget
    have hflag : probe.hasExternalResource = true :=
      (hasExternalResource_mbox hprobe).trans
        (List.any_eq_true.mpr ⟨email, hmem, refersRemote_of_body hbody h⟩)
    rw [planMboxExport]
    simp only [failIf, hformat, hengine, htarget, hflag, not_true_eq_false, ne_eq, if_false, if_true]
    rfl

end Gate

/-- A body from which the sanitizer removes a remote address is refused exactly if it has a compact
    reference, whatever the tokenizer. -/
theorem remote_gate_iff {φ : Type} (tools : MailTools φ) (read : List Char → List HtmlEvent)
    (body : String) :
    (RemovesRemote read body.toList → RemoteRefused tools body) ↔
      ¬ RemovesRemote read body.toList ∨ CompactReference body.toList := by
  by_cases hremoves : RemovesRemote read body.toList
  · rw [← containsRemoteReference_iff]
    constructor
    · intro h
      exact .inr (h hremoves).detected
    · intro h _
      exact remoteRefused_of_contains (h.resolve_left (not_not_intro hremoves))
  · exact iff_of_true (fun h => absurd h hremoves) (.inl hremoves)

namespace Sample

def mailTools : MailTools Unit := ⟨tools, fun _ => none, fun text => text⟩

/-- The one image of a body, as the tokenizer reads it. -/
def readImage (_ : List Char) : List HtmlEvent :=
  [.empty "img".toList [some ⟨"src".toList, "https://x/a.png".toList⟩]]

theorem remote_gate_tight :
    RemovesRemote readImage "<img src=\"https://x/a.png\"/>".toList ∧
      RemoteRefused mailTools "<img src=\"https://x/a.png\"/>" := by
  have hremoves : RemovesRemote readImage "<img src=\"https://x/a.png\"/>".toList :=
    ⟨⟨"src".toList, "https://x/a.png".toList⟩, by decide, by decide⟩
  refine ⟨hremoves, (remote_gate_iff mailTools readImage _).mpr (.inr ?_) hremoves⟩
  exact @compactReference_of_tight ⟨"src".toList, "https://x/a.png".toList⟩ "<img ".toList "\"/>".toList
    '"' (by decide) (.inl rfl) (List.all_eq_true.mp (by decide))

/-- A mail with an image. -/
def imageMail (body : String) : ParsedEmail := ⟨none, none, none, none, none, some body⟩

def imageProbe (body : String) : MailProbe :=
  ⟨⟨"in", PathBuf.ofString "/in.eml", 1000, "fast:11"⟩, "eml", emailProperties mailTools (imageMail body)⟩

/-- A space before the `=` hides the address from the detector, and the mail is planned. -/
theorem spaced_address_planned :
    RemovesRemote readImage "<img src =\"https://x/a.png\"/>".toList ∧
      containsRemoteReference "<img src =\"https://x/a.png\"/>".toList = false ∧
      ∃ plan, planEmlExport tools (imageProbe "<img src =\"https://x/a.png\"/>")
        (PathBuf.ofString "/out.html") { qpdf with engineId := "anole.eml" } "html" 1 = .ok plan := by
  have hmissed : (imageProbe "<img src =\"https://x/a.png\"/>").hasExternalResource = false :=
    (hasExternalResource_email rfl).trans (by decide)
  refine ⟨⟨⟨"src".toList, "https://x/a.png".toList⟩, by decide, by decide⟩, by decide, ?_⟩
  rw [planEmlExport, hmissed]
  exact ⟨_, rfl⟩

end Sample

end Anole.Planning
