import EsigSuite.Lib.Async
import EsigSuite.Lib.Base64
import EsigSuite.Lib.JsRegex
import EsigSuite.Lib.JsValue
import EsigSuite.Lib.Lines
import EsigSuite.Pdf.PqSeal
import Mathlib.Data.List.DropRight

/-!
# Sending mail

`esig-mcp/src/email/transport.ts`: the message, the replies of a server, and the
conversation that `SmtpTransport` holds with it.
-/

namespace EsigSuite.Email

open Lib Lib.Regex

structure EmailMessage where
  from_ : JsString
  to_ : JsString
  replyTo : Option JsString := none
  subject : JsString
  text : JsString
  html : JsString

/-- What is drawn from the system for one message. The name of a host and a date
are single lines. -/
structure MailHost where
  hostname : JsString
  date : JsString
  boundaryBytes : Bytes
  messageIdBytes : Bytes
  hostname_line : 13 ∉ hostname ∧ 10 ∉ hostname
  date_line : 13 ∉ date ∧ 10 ∉ date

-- ---------------------------------------------------------------------------
-- Texts
-- ---------------------------------------------------------------------------

/-- `\r`, `\n` and `.` -/
def lineEnds : LineEnds UInt16 where
  cr := 13
  lf := 10
  dot := 46
  cr_ne_lf := by decide
  dot_ne_cr := by decide
  dot_ne_lf := by decide

def crlf : JsString := [13, 10]

def stripControlChars (s : JsString) : JsString := s.filter fun c => !(c ≤ 0x1F || c == 0x7F)

def trim (s : JsString) : JsString := (s.dropWhile isWhiteUnit).rdropWhile isWhiteUnit

/-- `/<([^<>]+)>\s*$/` -/
def bracketed : Regex UInt16 :=
  .all [chr '<', .group (plus (without "<>")), chr '>', many white, finish]

/-- The first match of a pattern in a text. -/
def firstMatch (r : Regex UInt16) : Option UInt16 → JsString → Option (Found UInt16)
  | before, [] => (r.exec before []).head?
  | before, c :: text => (r.exec before (c :: text)).head?.or (firstMatch r (some c) text)

def extractAddress (value : JsString) : JsString :=
  let cleaned := trim (stripControlChars value)
  trim (((firstMatch bracketed none cleaned).bind (·.groups.head?)).getD cleaned)

/-- The rest of a text in which a secret was found is passed over. -/
def redactFrom (secret : JsString) : Nat → JsString → JsString
  | _, [] => []
  | skip + 1, _ :: rest => redactFrom secret skip rest
  | 0, c :: rest =>
    if secret.isPrefixOf (c :: rest) then js "[redacted]" ++ redactFrom secret (secret.length - 1) rest
    else c :: redactFrom secret 0 rest

def redact (message secret : JsString) : JsString :=
  if secret = [] then message else redactFrom secret 0 message

def redactAll (message : JsString) (secrets : List JsString) : JsString := secrets.foldl redact message

def normalizeCrlf (s : JsString) : JsString := lineEnds.normalize s

def dotStuff (s : JsString) : JsString := lineEnds.dotStuff s

-- ---------------------------------------------------------------------------
-- The message
-- ---------------------------------------------------------------------------

def boundaryOf (host : MailHost) : JsString := js "----=_esig-mcp-" ++ hexText host.boundaryBytes

def messageIdOf (host : MailHost) : JsString :=
  js "<" ++ hexText host.messageIdBytes ++ js "@esig-mcp.local>"

def replyToLine (msg : EmailMessage) : List JsString :=
  match msg.replyTo with
  | none | some [] => []
  | some (c :: replyTo) => [js "Reply-To: " ++ stripControlChars (c :: replyTo)]

def headerLines (host : MailHost) (msg : EmailMessage) : List JsString :=
  [js "From: " ++ stripControlChars msg.from_, js "To: " ++ stripControlChars msg.to_] ++
  replyToLine msg ++
  [js "Subject: " ++ stripControlChars msg.subject, js "Date: " ++ host.date,
    js "Message-ID: " ++ messageIdOf host, js "MIME-Version: 1.0",
    js "Content-Type: multipart/alternative; boundary=\"" ++ boundaryOf host ++ js "\""]

def bodyLines (host : MailHost) (msg : EmailMessage) : List JsString :=
  [js "--" ++ boundaryOf host, js "Content-Type: text/plain; charset=\"utf-8\"",
    js "Content-Transfer-Encoding: 8bit", [], msg.text, [], js "--" ++ boundaryOf host,
    js "Content-Type: text/html; charset=\"utf-8\"", js "Content-Transfer-Encoding: 8bit", [],
    msg.html, [], js "--" ++ boundaryOf host ++ js "--"]

/-- `raw` of `buildMimeMessage`. -/
def buildMimeMessage (host : MailHost) (msg : EmailMessage) : JsString :=
  lineEnds.joinLines (headerLines host msg) ++ crlf ++ crlf ++ lineEnds.joinLines (bodyLines host msg)

/-- What is written after DATA. -/
def dataPayload (host : MailHost) (msg : EmailMessage) : JsString :=
  dotStuff (normalizeCrlf (buildMimeMessage host msg)) ++ js "\r\n.\r\n"

-- ---------------------------------------------------------------------------
-- Replies
-- ---------------------------------------------------------------------------

/-- No code is `NaN`. -/
structure SmtpReply where
  code : Option Nat
  raw : JsString
  deriving DecidableEq

/-- The three digits that a line begins with. -/
def codeOf (line : JsString) : Option Nat :=
  if (line.take 3).length = 3 ∧ (line.take 3).all isDigitUnit then
    some ((line.take 3).foldl (fun n c => 10 * n + (c.toNat - 48)) 0)
  else none

/-- A hyphen behind the code: another line of the reply follows. -/
def continues (line : JsString) : Bool := (codeOf line).isSome && (line)[3]? == some (unitOf '-')

/-- One `\r` before the end of the line goes with it. -/
def chopped (line : JsString) : JsString := if line.getLast? = some 13 then line.dropLast else line

/-- `parseReply`, over the lines read so far and the units of the one begun. -/
def parseFrom (lines : List JsString) : JsString → JsString → Option (SmtpReply × JsString)
  | _, [] => none
  | line, c :: rest =>
    if c = 10 then
      let lines' := lines ++ [chopped line]
      if continues (chopped line) then parseFrom lines' [] rest
      else some (⟨codeOf (chopped line), [10].intercalate lines'⟩, rest)
    else parseFrom lines (line ++ [c]) rest

def parseReply (buffer : JsString) : Option (SmtpReply × JsString) := parseFrom [] [] buffer

-- ---------------------------------------------------------------------------
-- The conversation
-- ---------------------------------------------------------------------------

inductive SmtpOp
  | connect (tls : Bool)
  | upgradeToTls
  | write (raw : JsString)
  | readReply

/-- An error is given by its message. -/
def SmtpOp.Res : SmtpOp → Type
  | .connect _ | .upgradeToTls => Option JsString
  | .write _ => Unit
  | .readReply => Except JsString SmtpReply

abbrev Smtp := ExceptT JsString (Prog SmtpOp SmtpOp.Res)

structure SmtpTransportOptions where
  port : Nat
  user : JsString := []
  pass : JsString := []
  secure : Option Bool := none
  allowPlaintext : Bool := false

/-- `Buffer.from(text, "utf8").toString("base64")` -/
def base64 (text : JsString) : JsString := (Base64.encode (textEncode text)).map (·.toUInt16)

/-- `\0user\0pass` -/
def plainCredential (opts : SmtpTransportOptions) : JsString :=
  base64 (0 :: opts.user ++ 0 :: opts.pass)

def secretsToRedact (opts : SmtpTransportOptions) : List JsString :=
  if opts.pass = [] then []
  else
    [opts.pass, base64 opts.pass] ++
      if opts.user = [] then [] else [plainCredential opts, base64 opts.user]

namespace Smtp

def writeRaw (raw : JsString) : Smtp Unit := ExceptT.lift (Prog.perform (SmtpOp.write raw))

def writeLine (line : JsString) : Smtp Unit := writeRaw (line ++ crlf)

def readReply : Smtp SmtpReply := ExceptT.mk (Prog.perform SmtpOp.readReply)

/-- `undefined` for no error. -/
def orThrow (op : SmtpOp) (error : op.Res → Option JsString) : Smtp Unit := do
  let r ← ExceptT.lift (Prog.perform op)
  match error r with
  | some e => throw e
  | none => return ()

variable (opts : SmtpTransportOptions)

def fail {α : Type} (message : JsString) : Smtp α := throw (redactAll message (secretsToRedact opts))

def expect (codes : List Nat) (step : String) : Smtp SmtpReply := do
  let reply ← readReply
  if reply.code.all (· ∉ codes) then
    fail opts (js ("SMTP " ++ step ++ " failed: ") ++ reply.raw)
  else return reply

def ehlo (host : MailHost) : Smtp SmtpReply := do
  let hostname := if host.hostname = [] then js "localhost" else host.hostname
  writeLine (js "EHLO " ++ hostname)
  let reply ← readReply
  if reply.code = some 250 then return reply
  else
    writeLine (js "HELO " ++ hostname)
    let heloReply ← readReply
    if heloReply.code ≠ some 250 then fail opts (js "SMTP EHLO/HELO failed: " ++ heloReply.raw)
    else return heloReply

def codeText (code : Option Nat) : JsString := js ((code.map toString).getD "NaN")

/-- Only the code of a reply goes into these errors. -/
def authFailed {α : Type} (step : String) (reply : SmtpReply) : Smtp α :=
  fail opts (js ("SMTP AUTH " ++ step ++ " failed (server replied ") ++ codeText reply.code ++ js ")")

def authenticate : Smtp Unit := do
  writeLine (js "AUTH PLAIN " ++ plainCredential opts)
  let plainReply ← readReply
  if plainReply.code = some 235 then return ()
  else if plainReply.code.any (· < 500) then authFailed opts "PLAIN" plainReply
  else
    writeLine (js "AUTH LOGIN")
    let loginReply ← readReply
    if loginReply.code ≠ some 334 then authFailed opts "LOGIN" loginReply
    else
      writeLine (base64 opts.user)
      let userReply ← readReply
      if userReply.code ≠ some 334 then authFailed opts "LOGIN (username)" userReply
      else
        writeLine (base64 opts.pass)
        let passReply ← readReply
        if passReply.code ≠ some 235 then authFailed opts "LOGIN" passReply
        else return ()

/-- From the connection to the point where it is as safe as it gets. -/
def secured (host : MailHost) : Smtp Unit := do
  let secure := opts.secure.getD (opts.port == 465)
  orThrow (.connect secure) id
  let _ ← expect opts [220] "greeting"
  let _ ← ehlo opts host
  if !secure && !opts.allowPlaintext then
    writeLine (js "STARTTLS")
    let _ ← expect opts [220] "STARTTLS"
    orThrow .upgradeToTls id
    let _ ← ehlo opts host

/-- The message itself, and the goodbye. -/
def deliver (host : MailHost) (msg : EmailMessage) : Smtp JsString := do
  if opts.user ≠ [] ∧ opts.pass ≠ [] then authenticate opts
  writeLine (js "MAIL FROM:<" ++ extractAddress msg.from_ ++ js ">")
  let _ ← expect opts [250] "MAIL FROM"
  writeLine (js "RCPT TO:<" ++ extractAddress msg.to_ ++ js ">")
  let _ ← expect opts [250, 251] "RCPT TO"
  writeLine (js "DATA")
  let _ ← expect opts [354] "DATA"
  writeRaw (dataPayload host msg)
  let dataReply ← readReply
  if dataReply.code ≠ some 250 then
    let _ ← fail (α := Unit) opts (js "SMTP DATA failed: " ++ dataReply.raw)
  writeLine (js "QUIT")
  let _ ← tryCatchThe JsString (some <$> readReply) fun _ => return none
  return messageIdOf host

/-- `SmtpTransport.send`, with the id of the message. -/
def send (host : MailHost) (msg : EmailMessage) : Smtp JsString :=
  tryCatchThe JsString
    (do secured opts host
        deliver opts host msg)
    fun e => throw (redactAll e (secretsToRedact opts))

end Smtp

end EsigSuite.Email
