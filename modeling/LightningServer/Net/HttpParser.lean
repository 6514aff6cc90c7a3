import LightningServer.Net.Buffer
import LightningServer.Net.HttpMessage

/-!
# The request parser

`parse` works on a `Buffer` and on the request it fills, and it can end in
three ways: `true` (a complete request), `false`, or an exception.  In each
case the buffer may have lost the header block and the request may be partly
filled, so both are part of the result.

The second half shows that only the readable bytes matter: `parseBytes` is
the same parser on a plain byte string, and `parse` refines it.
-/

namespace LightningServer.Net.HttpParser

open LightningServer.Foundation
open LightningServer.Foundation.Framing
open LightningServer.Foundation.Numerals

/-! ## Translation of the source -/

/-- The class " \t\r\n" of `trim`. -/
def isOuter (byte : UInt8) : Bool :=
  byte = 32 || byte = 9 || byte = 13 || byte = 10

def trim (s : Bytes) : Bytes :=
  trimBy isOuter s

/--
`stream >> target`: a stream that has failed stores nothing and stays failed.
-/
def extractInto (stream : Option Bytes) (target : Bytes) :
    Bytes × Option Bytes :=
  match stream.bind (extractWord isspace) with
  | none => (target, none)
  | some (word, rest) => (word, some rest)

/-- The body of the `getline` loop over the query string. -/
def storePair (params : StringMap) (pair : Bytes) : StringMap :=
  match pair.dropInfix? (ascii "=") with
  | none => params
  | some (key, value) => params.insert key value

def parseQueryString (path : Bytes) (req : HttpRequest) : HttpRequest :=
  match path.dropInfix? (ascii "?") with
  | none => req
  | some (front, query) =>
      { req with
        path := front
        queryParams := (getlines 38 query).foldl storePair req.queryParams }

def parseRequestLine (line : Bytes) (req : HttpRequest) :
    Bool × HttpRequest :=
  let (method, stream) := extractInto (some line) req.method
  let (path, stream) := extractInto stream req.path
  let (version, _) := extractInto stream req.version
  let req := { req with method := method, path := path, version := version }
  if method = [] ∨ path = [] ∨ version = [] then (false, req)
  else (true, parseQueryString path req)

def parseHeaders (line : Bytes) (req : HttpRequest) : Bool × HttpRequest :=
  match line.dropInfix? [colon] with
  | none => (false, req)
  | some (name, value) =>
      let key := (trim name).map tolower
      (true, { req with headers := req.headers.insert key (trim value) })

/-- `if (!line.empty() && line.back() == '\r') line.pop_back();` -/
def popCarriageReturn (line : Bytes) : Bytes :=
  if line.getLast? = some carriageReturn then line.dropLast else line

/-- The `getline` loop of `parse`; the flag is `firstLine`. -/
def parseLines : Bool → List Bytes → HttpRequest → Bool × HttpRequest
  | _, [], req => (true, req)
  | firstLine, line :: rest, req =>
      let line := popCarriageReturn line
      if line = [] then parseLines firstLine rest req
      else if firstLine then
        match parseRequestLine line req with
        | (false, req) => (false, req)
        | (true, req) => parseLines false rest req
      else parseLines false rest (parseHeaders line req).2

def dblcrlf : Bytes :=
  [carriageReturn, lineFeed, carriageReturn, lineFeed]

/-- What `parse` returns or throws. -/
abbrev ParseResult := Except StdException Bool

def parse (buf : Buffer) (req : HttpRequest) :
    ParseResult × Buffer × HttpRequest :=
  match buf.readable.dropInfix? dblcrlf with
  | none => (.ok false, buf, req)
  | some (headerBlock, _) =>
      let buf := buf.retrieve (headerBlock.length + 4)
      match parseLines true (getlines lineFeed headerBlock) req with
      | (false, req) => (.ok false, buf, req)
      | (true, req) =>
          match req.headers[ascii "content-length"]? with
          | none => (.ok true, buf, req)
          | some value =>
              match stoul (chars value) with
              | .error exception => (.error exception, buf, req)
              | .ok contentLength =>
                  if buf.readableBytes < contentLength then
                    (.ok false, buf, req)
                  else
                    let (body, buf) := buf.retrieveAsString contentLength
                    (.ok true, buf, { req with body := body })

/-! ## The parser on byte strings -/

/-- The part of `parse` after the line loop, on the bytes that follow. -/
def takeBody (req : HttpRequest) (rest : Bytes) :
    ParseResult × Bytes × HttpRequest :=
  match req.headers[ascii "content-length"]? with
  | none => (.ok true, rest, req)
  | some value =>
      match stoul (chars value) with
      | .error exception => (.error exception, rest, req)
      | .ok contentLength =>
          if rest.length < contentLength then (.ok false, rest, req)
          else
            (.ok true, rest.drop contentLength,
              { req with body := rest.take contentLength })

/-- `parse` as a function of the readable bytes. -/
def parseBytes (data : Bytes) (req : HttpRequest) :
    ParseResult × Bytes × HttpRequest :=
  match data.dropInfix? dblcrlf with
  | none => (.ok false, data, req)
  | some (headerBlock, rest) =>
      match parseLines true (getlines lineFeed headerBlock) req with
      | (false, req) => (.ok false, rest, req)
      | (true, req) => takeBody req rest

theorem readable_retrieve_headerBlock
    {buf : Buffer} {headerBlock rest : Bytes}
    (found : buf.readable.dropInfix? dblcrlf = some (headerBlock, rest)) :
    (buf.retrieve (headerBlock.length + 4)).readable = rest := by
  have length :
      headerBlock.length + 4 = (headerBlock ++ dblcrlf).length := by
    simp [dblcrlf]
  rw [Buffer.readable_retrieve, eq_of_dropInfix? found, length,
    List.drop_left]

/-- `parse` depends on, and leaves, readable bytes only as `parseBytes` says. -/
theorem parse_eq_parseBytes (buf : Buffer) (req : HttpRequest) :
    ((parse buf req).1, (parse buf req).2.1.readable,
        (parse buf req).2.2) =
      parseBytes buf.readable req := by
  unfold parse parseBytes
  cases found : buf.readable.dropInfix? dblcrlf with
  | none => rfl
  | some split =>
      rcases split with ⟨headerBlock, rest⟩
      have left := readable_retrieve_headerBlock found
      simp only
      cases parseLines true (getlines lineFeed headerBlock) req with
      | mk complete filled =>
          cases complete with
          | false => simp only [left]
          | true =>
              simp only [takeBody]
              cases filled.headers[ascii "content-length"]? with
              | none => simp only [left]
              | some value =>
                  simp only
                  cases stoul (chars value) with
                  | error exception => simp only [left]
                  | ok contentLength =>
                      simp only [← Buffer.length_readable, left]
                      split
                      · rw [left]
                      · next enough =>
                          have within :
                              contentLength ≤
                                (buf.retrieve
                                  (headerBlock.length + 4)).readableBytes := by
                            rw [← Buffer.length_readable, left]
                            omega
                          simp only [Buffer.readable_retrieveAsString,
                            Buffer.retrieveAsString_fst _ within, left]

end LightningServer.Net.HttpParser
