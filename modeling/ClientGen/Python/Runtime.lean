import ClientGen.Artifact
import ClientGen.Text.Quoted

/-! The runtime of the Python clients: settings, errors and the transport. -/
namespace ClientGen.Python
namespace Runtime

def imports : Lines :=
  Lines.apart [
    ["\"\"\"HTTP transport shared by the generated clients.\"\"\""],
    ["from __future__ import annotations"],
    ["from dataclasses import dataclass, field",
      "from typing import Any, Mapping",
      "from urllib.parse import quote"],
    ["import requests"]]

def defaults (m : Model) (o : Options) : Lines :=
  ["DEFAULT_BASE_URL = " ++ quoted (m.defaultBaseUrl o),
    "DEFAULT_TIMEOUT = " ++ toString o.timeout]

def clientConfig (o : Options) : Lines :=
  ["@dataclass",
    "class ApiClientConfig:"]
    ++ o.docs [
      "    \"\"\"Connection settings. ``token`` is sent as a bearer ``Authorization`` header.\"\"\"",
      ""]
    ++ ["    base_url: str = DEFAULT_BASE_URL",
      "    token: str | None = None",
      "    timeout: float = DEFAULT_TIMEOUT",
      "    headers: dict[str, str] = field(default_factory=dict)"]

def apiError (o : Options) : Lines :=
  ["class ApiError(Exception):"]
    ++ o.docs [
      "    \"\"\"A non-2xx response. ``body`` is the decoded JSON when the server sent any.\"\"\"",
      ""]
    ++ ["    def __init__(self, status: int, reason: str, body: Any) -> None:",
      "        super().__init__(f\"HTTP \x7bstatus\x7d \x7breason\x7d\")",
      "        self.status = status",
      "        self.reason = reason",
      "        self.body = body"]

def initMethod : Lines :=
  ["def __init__(",
    "    self,",
    "    config: ApiClientConfig | None = None,",
    "    session: requests.Session | None = None,",
    ") -> None:",
    "    self.config = config or ApiClientConfig()",
    "    self.session = session or requests.Session()",
    "    self.session.headers.update(self.config.headers)",
    "    self.set_token(self.config.token)"]

def setTokenMethod : Lines :=
  ["def set_token(self, token: str | None) -> None:",
    "    self.config.token = token",
    "    if token:",
    "        self.session.headers[\"Authorization\"] = f\"Bearer \x7btoken\x7d\"",
    "    else:",
    "        self.session.headers.pop(\"Authorization\", None)"]

def urlMethod : Lines :=
  ["def url(self, path: str, path_params: Mapping[str, Any] | None = None) -> str:",
    "    for name, value in (path_params or \x7b\x7d).items():",
    "        path = path.replace(\"\x7b\" + name + \"\x7d\", quote(str(value), safe=\"\"))",
    "    return self.config.base_url.rstrip(\"/\") + path"]

/-- What a request is made of, each with its default. -/
def requestArguments : Lines :=
  ["    self,",
    "    method: str,",
    "    path: str,",
    "    *,",
    "    path_params: Mapping[str, Any] | None = None,",
    "    query: Mapping[str, Any] | None = None,",
    "    body: Any = None,"]

def requestMethod : Lines :=
  ["def request("] ++ requestArguments
    ++ [") -> Any:",
      "    response = self._send(",
      "        method, path, path_params, query, body, stream=False, accept=\"application/json\"",
      "    )",
      "    if not response.content:",
      "        return None",
      "    return response.json()"]

def streamMethod (o : Options) : Lines :=
  ["def stream("] ++ requestArguments
    ++ ["    accept: str = \"text/event-stream\",",
      ") -> requests.Response:"]
    ++ o.docs ["    \"\"\"Send a request and return the open response for a stream decoder.\"\"\""]
    ++ ["    return self._send(method, path, path_params, query, body, stream=True, accept=accept)"]

def sendMethod : Lines :=
  ["def _send(",
    "    self,",
    "    method: str,",
    "    path: str,",
    "    path_params: Mapping[str, Any] | None,",
    "    query: Mapping[str, Any] | None,",
    "    body: Any,",
    "    *,",
    "    stream: bool,",
    "    accept: str,",
    ") -> requests.Response:",
    "    params = \x7bkey: value for key, value in (query or \x7b\x7d).items() if value is not None\x7d",
    "    json_body = body.model_dump(by_alias=True, exclude_none=True) "
      ++ "if hasattr(body, \"model_dump\") else body",
    "    response = self.session.request(",
    "        method,",
    "        self.url(path, path_params),",
    "        params=params or None,",
    "        json=json_body,",
    "        headers=\x7b\"Accept\": accept\x7d,",
    "        timeout=self.config.timeout,",
    "        stream=stream,",
    "    )",
    "    if not response.ok:",
    "        try:",
    "            detail = response.json()",
    "        except ValueError:",
    "            detail = response.text or None",
    "        response.close()",
    "        raise ApiError(response.status_code, response.reason, detail)",
    "    return response"]

def transport (o : Options) : Lines :=
  "class Transport:" ::
    Lines.indent 4 (Lines.apart
      [initMethod, setTokenMethod, urlMethod, requestMethod, streamMethod o, sendMethod])

end Runtime

def runtime (m : Model) (o : Options) : Lines :=
  [Lines.header "#" [m.info.title, m.info.version]] ++ Runtime.imports
    ++ [""] ++ Runtime.defaults m o
    ++ ["", ""] ++ Runtime.clientConfig o
    ++ ["", ""] ++ Runtime.apiError o
    ++ ["", ""] ++ Runtime.transport o

end ClientGen.Python
