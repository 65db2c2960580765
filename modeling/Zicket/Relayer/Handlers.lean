import Mathlib.Logic.Function.Basic
import Zicket.Foundation.FixedWindow
import Zicket.Host.Env

/-! The relayer in front of the contracts: the limits by address and by session, the captcha, and
the answer of `submit_transaction`. A call reads the clock once. -/

namespace Zicket.Relayer

open Foundation Host

/-- A text by its characters. -/
abbrev Text := List Char

structure RateLimiter where
  ipCounts : Text → Option FixedWindow
  sessionCounts : Text → Option FixedWindow
  maxPerIp : ℕ
  maxPerSession : ℕ
  window : ℕ

namespace RateLimiter

def new (maxPerIp maxPerSession window : ℕ) : RateLimiter where
  ipCounts _ := none
  sessionCounts _ := none
  maxPerIp := maxPerIp
  maxPerSession := maxPerSession
  window := window

variable (limiter : RateLimiter) (now : ℕ)

def ipEntry (ip : Text) : FixedWindow × Bool :=
  ((limiter.ipCounts ip).getD ⟨0, now⟩).allow limiter.maxPerIp limiter.window now

def checkAndIncrementIp (ip : Text) : RateLimiter × Bool :=
  ({ limiter with
      ipCounts := Function.update limiter.ipCounts ip (some (limiter.ipEntry now ip).1) },
    (limiter.ipEntry now ip).2)

def sessionEntry (session : Text) : FixedWindow × Bool :=
  ((limiter.sessionCounts session).getD ⟨0, now⟩).allow limiter.maxPerSession limiter.window now

def checkAndIncrementSession (session : Text) : RateLimiter × Bool :=
  ({ limiter with
      sessionCounts :=
        Function.update limiter.sessionCounts session (some (limiter.sessionEntry now session).1) },
    (limiter.sessionEntry now session).2)

end RateLimiter

structure CaptchaService where
  secretKey : String

/-- The answer of the captcha server is none when the call or its decoding fails. -/
def CaptchaService.verify (service : CaptchaService) (token : String)
    (siteverify : Option Bool) : Bool :=
  if token = "" then false
  else if service.secretKey = "dummy_secret" ∧ token = "valid_dummy_token" then true
  else siteverify.getD false

inductive StatusCode where
  | ok
  | badRequest
  | tooManyRequests
  deriving DecidableEq

structure TransactionResponse where
  code : StatusCode
  status : String
  txHash : Option String
  error : Option String

def TransactionResponse.refused (code : StatusCode) (error : String) : TransactionResponse :=
  ⟨code, "error", none, some error⟩

/-- A request with its headers and peer, the moment it is served, and what the captcha server would
answer. -/
structure TransactionRequest where
  forwardedFor : Option Bytes
  sessionId : Option Bytes
  peer : Text
  captchaToken : String
  now : ℕ
  siteverify : Option Bool

/-- `HeaderValue::to_str`: visible characters, blanks and tabs only. -/
def toStr (value : Bytes) : Option Text :=
  if value.all fun b => b == 9 || (32 ≤ b && b < 127) then
    some (value.map fun b => Char.ofNat b.toNat)
  else none

def trim (text : Text) : Text :=
  ((text.dropWhile Char.isWhitespace).reverse.dropWhile Char.isWhitespace).reverse

namespace TransactionRequest

variable (request : TransactionRequest)

/-- The first address that the header names, or the peer where there is no such header. -/
def ip : Text :=
  match request.forwardedFor.bind toStr with
  | some header => trim (header.takeWhile (· ≠ ','))
  | none => request.peer

def session : Option Text := request.sessionId.bind toStr

end TransactionRequest

section Serving

variable (service : CaptchaService) (limiter : RateLimiter) (request : TransactionRequest)

def checkSession : RateLimiter × Bool :=
  match request.session with
  | some session => limiter.checkAndIncrementSession request.now session
  | none => (limiter, true)

def submitTransaction : RateLimiter × TransactionResponse :=
  let byIp := limiter.checkAndIncrementIp request.now request.ip
  if byIp.2 = false then (byIp.1, .refused .tooManyRequests "Rate limit exceeded for IP")
  else
    let bySession := checkSession byIp.1 request
    if bySession.2 = false then
      (bySession.1, .refused .tooManyRequests "Rate limit exceeded for Session")
    else if service.verify request.captchaToken request.siteverify = false then
      (bySession.1, .refused .badRequest "Invalid captcha token")
    else (bySession.1, ⟨.ok, "success", some "mocked_tx_hash_12345", none⟩)

abbrev Served := RateLimiter × List (TransactionRequest × TransactionResponse)

def serve (state : Served) (request : TransactionRequest) : Served :=
  ((submitTransaction service state.1 request).1,
    (request, (submitTransaction service state.1 request).2) :: state.2)

def run (requests : List TransactionRequest) : Served :=
  requests.foldl (serve service) (limiter, [])

end Serving

end Zicket.Relayer
