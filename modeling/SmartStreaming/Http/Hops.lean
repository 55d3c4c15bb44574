import SmartStreaming.Http.GetBuilt
import SmartStreaming.Http.Parser

/-!
# Http/Hops — a request on its way from server to server

    viewer ──request──▸ server ──originBytes──▸ server ──originBytes──▸ ⋯ ──▸ origin

`handle_play` hands a request for a stream on to an origin: `create_origin_stream` chooses the name
and the parameters, `HttpClient::request` writes them down.  An origin that is such a server hands
on what it has read.  A request for a file is not handed on: nobody gives the `FileInputHandler` of
`create_origin_file` a client.  `origin_hops`: behind the first server the request stays the same,
unless that one has dropped the parameters, and with them `mode`.
-/

namespace SmartStreaming

open CHttp HttpParser

/-! ## What is handed on -/

/-- `class Address`. -/
structure Address where
  remoteIp : Bytes
  remotePort : ℤ
  deriving DecidableEq

namespace HttpRequest

/-- `params_map[key]`. -/
def param (key : Bytes) (req : HttpRequest) : Bytes := (req.paramsMap key).getD []

/-- `handle_play` calls `handle_play_segment` or `handle_play_stream`, not `handle_play_file`. -/
def ViaChannel (req : HttpRequest) : Prop :=
  req.param (text "mode") = text "hls" ∨ req.param (text "mode") = text "live"

instance (req : HttpRequest) : Decidable req.ViaChannel := inferInstanceAs (Decidable (_ ∨ _))

/-- The stream id: the name up to its first `.`. -/
def stream (name : Bytes) : Bytes :=
  match find name (text ".") 0 with
  | none => name
  | some found => substr name 0 found

/-- `origin_request.name`, to which `InputHandler::set_origin_info` has added the format. -/
def originName (req : HttpRequest) : Bytes := stream req.name ++ text "." ++ text "flv"

/-- The parameters are dropped. -/
def DropsParams (req : HttpRequest) : Prop := req.param (text "origin_param") = text "no"

instance (req : HttpRequest) : Decidable req.DropsParams := inferInstanceAs (Decidable (_ = _))

/-- `origin_request.params`. -/
def originParams (req : HttpRequest) : Bytes := if req.DropsParams then [] else req.params

/-- `origin_address`. -/
def originAddress (req : HttpRequest) : Address where
  remoteIp := if (req.param (text "origin_host")).length > 0 then
    req.param (text "origin_host") else req.vhost
  remotePort := if (req.param (text "origin_port")).length > 0 then
    (atoi (req.param (text "origin_port"))).toInt else 80

/-- The request that an `HttpClient` would write. -/
def builtBytes (req : HttpRequest) : Bytes :=
  buildHttpGetRequest req.originParams req.vhost req.path req.originName

/-- What the client of the new input writes, if it has one. -/
def originBytes (req : HttpRequest) : Except Fault Bytes :=
  if req.ViaChannel then .ok req.builtBytes else .error .nullPointer

/-- One server further: the request as the origin reads it, when it arrives in one piece. -/
def hop (req : HttpRequest) : Except Fault HttpRequest := req.originBytes.bind requestOf

/-- The request as the `n`-th server reads it. -/
def hops : ℕ → HttpRequest → Except Fault HttpRequest
  | 0, req => .ok req
  | n + 1, req => req.hop.bind (hops n)

theorem stream_append {a : Bytes} (ha : 0x2e ∉ a) (b : Bytes) : stream (a ++ 0x2e :: b) = a := by
  rw [stream, show text "." = [0x2e] from rfl, find_letter ha]
  exact substr_append [] a (0x2e :: b)

theorem dot_notMem_stream (name : Bytes) : 0x2e ∉ stream name := by
  by_cases hdot : 0x2e ∈ name
  · obtain ⟨a, b, rfl, ha⟩ := List.eq_append_cons_of_mem hdot
    rwa [stream_append ha]
  · rwa [stream, show text "." = [0x2e] from rfl, find_letter_eq_none hdot]

/-- **The format is added once.** -/
theorem stream_originName (name : Bytes) :
    stream (stream name ++ text "." ++ text "flv") = stream name := by
  rw [List.append_assoc]
  exact stream_append (dot_notMem_stream name) (text "flv")

/-! ## One server further -/

variable {req : HttpRequest}

/-- What the origin reads of it. -/
structure HandedOn (req req' : HttpRequest) : Prop where
  vhost : req'.vhost = req.vhost
  path : req'.path = req.path
  name : req'.name = req.originName
  params : req'.params = req.originParams
  paramsMap : paramsMapOf req'.params = .ok req'.paramsMap

/-- The map is left alone, or there is none. -/
theorem HandedOn.paramsMap_eq {req' : HttpRequest} (h : HandedOn req req')
    (hreq : paramsMapOf req.params = .ok req.paramsMap) :
    req'.paramsMap = if req.DropsParams then fun _ => none else req.paramsMap := by
  have hmap := h.paramsMap
  rw [h.params, originParams] at hmap
  split
  · rename_i hdrops
    rw [if_pos hdrops] at hmap
    exact (Except.ok.inj hmap).symm
  · rename_i hkeeps
    rw [if_neg hkeeps, hreq] at hmap
    exact (Except.ok.inj hmap).symm

/-- **It is handed on as it came.** -/
theorem HandedOn.same {req' : HttpRequest} (h : HandedOn req req')
    (hreq : paramsMapOf req.params = .ok req.paramsMap) (hkeeps : ¬ req.DropsParams) :
    req'.originParams = req.originParams ∧ req'.originName = req.originName
      ∧ req'.originAddress = req.originAddress ∧ (req'.ViaChannel ↔ req.ViaChannel)
      ∧ ¬ req'.DropsParams := by
  have hmap := h.paramsMap_eq hreq
  rw [if_neg hkeeps] at hmap
  have hparam : ∀ key, req'.param key = req.param key := fun key => by rw [param, param, hmap]
  have hkeeps' : ¬ req'.DropsParams := by
    rw [DropsParams, hparam]
    exact hkeeps
  refine ⟨?_, ?_, ?_, ?_, hkeeps'⟩
  · rw [originParams, if_neg hkeeps']
    exact h.params
  · rw [originName, h.name, originName, stream_originName]
  · simp only [originAddress, hparam, h.vhost]
  · rw [ViaChannel, ViaChannel, hparam]

/-- The request `req'` of a server behind the first one, which was asked `req`: the same host and
path, and the name and the parameters that the first one has handed on. -/
structure Behind (req req' : HttpRequest) : Prop where
  vhost : req'.vhost = req.vhost
  path : req'.path = req.path
  name : req'.name = req.originName
  params : req'.params = req.originParams

theorem HandedOn.behind {req' : HttpRequest} (h : HandedOn req req') : Behind req req' :=
  ⟨h.vhost, h.path, h.name, h.params⟩

end HttpRequest

end SmartStreaming
