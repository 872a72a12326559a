import ClientGen.Artifact
import ClientGen.Text.Quoted
import ClientGen.TypeScript.Block

/-! The runtime of the TypeScript clients: settings, errors and the transport. -/
namespace ClientGen.TypeScript
namespace Runtime

/-- In milliseconds, at most the largest number of 64 bits. -/
def timeoutMs (o : Options) : Nat := min (o.timeout * 1000) (Nat.pow 2 64 - 1)

def defaults (m : Model) (o : Options) : Lines :=
  ["export const DEFAULT_BASE_URL = " ++ quoted (m.defaultBaseUrl o) ++ ";",
    "export const DEFAULT_TIMEOUT_MS = " ++ toString (timeoutMs o) ++ ";"]

def clientConfig (o : Options) : Lines :=
  o.docs ["/** Settings shared by every request a client makes. */"]
    ++ block "export interface ClientConfig" [
      "baseUrl?: string;",
      "/** Sent as `Authorization: Bearer <token>`. */",
      "token?: string;",
      "timeoutMs?: number;",
      "headers?: Record<string, string>;",
      "fetch?: typeof fetch;"]

def requestOptions : Lines :=
  block "export interface RequestOptions" [
    "signal?: AbortSignal;",
    "headers?: Record<string, string>;"]

def requestParts : Lines :=
  block "export interface RequestParts" [
    "pathParams?: Record<string, string | number | boolean>;",
    "query?: Record<string, unknown>;",
    "body?: unknown;"]

def apiError (o : Options) : Lines :=
  o.docs ["/** A non-2xx response. `body` is the decoded JSON when the server sent any. */"]
    ++ block "export class ApiError extends Error" (Lines.apart [
      ["readonly status: number;",
        "readonly body: unknown;"],
      block "constructor(status: number, statusText: string, body: unknown)" [
        "super(`HTTP $\x7bstatus\x7d $\x7bstatusText\x7d`);",
        "this.name = \"ApiError\";",
        "this.status = status;",
        "this.body = body;"]])

def constructorMethod : Lines :=
  block "constructor(config: ClientConfig = \x7b\x7d)" [
    "this.baseUrl = (config.baseUrl ?? DEFAULT_BASE_URL).replace(/\\/+$/, \"\");",
    "this.timeoutMs = config.timeoutMs ?? DEFAULT_TIMEOUT_MS;",
    "this.headers = \x7b ...config.headers \x7d;",
    "this.fetchFn = config.fetch ?? globalThis.fetch.bind(globalThis);",
    "this.token = config.token;"]

def setToken : Lines :=
  block "setToken(token: string | undefined): void" ["this.token = token;"]

def urlMethod : Lines :=
  block "url(path: string, parts: RequestParts = \x7b\x7d): string" <|
    ["let resolved = path;"]
      ++ block "for (const [name, value] of Object.entries(parts.pathParams ?? \x7b\x7d))" [
        "resolved = resolved.split(`\x7b$\x7bname\x7d\x7d`)"
          ++ ".join(encodeURIComponent(String(value)));"]
      ++ ["const search = new URLSearchParams();"]
      ++ block "for (const [name, value] of Object.entries(parts.query ?? \x7b\x7d))"
        ("if (value === undefined || value === null) continue;" ::
          blocks "if (Array.isArray(value))" [
              "for (const item of value) search.append(name, String(item));"]
            "else" ["search.append(name, String(value));"])
      ++ ["const qs = search.toString();",
        "return qs ? `$\x7bthis.baseUrl\x7d$\x7bresolved\x7d?$\x7bqs\x7d`"
          ++ " : `$\x7bthis.baseUrl\x7d$\x7bresolved\x7d`;"]

def requestMethod : Lines :=
  ["async request<T>(",
    "  method: string,",
    "  path: string,",
    "  parts: RequestParts = \x7b\x7d,",
    "  options: RequestOptions = \x7b\x7d,"]
    ++ block "): Promise<T>" [
      "const signals = [AbortSignal.timeout(this.timeoutMs)];",
      "if (options.signal) signals.push(options.signal);",
      "const response = await this.send(",
      "  method,",
      "  path,",
      "  parts,",
      "  options,",
      "  AbortSignal.any(signals),",
      "  \"application/json\",",
      ");",
      "const text = await response.text();",
      "return (text ? JSON.parse(text) : undefined) as T;"]

def streamMethod : Lines :=
  ["/** Send a request and hand back the open response for a stream decoder. */",
    "async stream(",
    "  method: string,",
    "  path: string,",
    "  parts: RequestParts = \x7b\x7d,",
    "  options: RequestOptions = \x7b\x7d,",
    "  accept = \"text/event-stream\","]
    ++ block "): Promise<Response>" [
      "return this.send(method, path, parts, options, options.signal, accept);"]

def failureLines : Lines :=
  block "if (!response.ok)" <|
    ["const text = await response.text().catch(() => \"\");",
      "let detail: unknown = text || undefined;"]
      ++ blocks "try" ["detail = text ? JSON.parse(text) : undefined;"]
        "catch" ["// keep the raw text"]
      ++ ["throw new ApiError(response.status, response.statusText, detail);"]

def sendMethod : Lines :=
  ["private async send(",
    "  method: string,",
    "  path: string,",
    "  parts: RequestParts,",
    "  options: RequestOptions,",
    "  signal: AbortSignal | undefined,",
    "  accept: string,"]
    ++ block "): Promise<Response>" (Lines.apart [
      ["const headers: Record<string, string> = \x7b",
          "  Accept: accept,",
          "  ...this.headers,",
          "  ...options.headers,",
          "\x7d;",
          "if (this.token) headers.Authorization = `Bearer $\x7bthis.token\x7d`;",
          "let body: string | undefined;"]
        ++ block "if (parts.body !== undefined)" [
          "headers[\"Content-Type\"] = \"application/json\";",
          "body = JSON.stringify(parts.body);"],
      ["const response = await this.fetchFn(this.url(path, parts), \x7b",
          "  method,",
          "  headers,",
          "  body,",
          "  signal,",
          "\x7d);"]
        ++ failureLines
        ++ ["return response;"]])

def transport : Lines :=
  block "export class Transport" (Lines.apart [
    ["private readonly baseUrl: string;",
      "private readonly timeoutMs: number;",
      "private readonly headers: Record<string, string>;",
      "private readonly fetchFn: typeof fetch;",
      "private token: string | undefined;"],
    constructorMethod, setToken, urlMethod, requestMethod, streamMethod, sendMethod])

end Runtime

def runtime (m : Model) (o : Options) : Lines :=
  Lines.apart [
    [Lines.header "//" [m.info.title, m.info.version]],
    Runtime.defaults m o,
    Runtime.clientConfig o,
    Runtime.requestOptions,
    Runtime.requestParts,
    Runtime.apiError o,
    Runtime.transport]

end ClientGen.TypeScript
