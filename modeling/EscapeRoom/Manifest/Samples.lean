import EscapeRoom.Text.Lines

/-!
# Two manifests

The manifest that a player begins with, and one that satisfies every rule.
-/

namespace EscapeRoom

/-- The lines that both manifests have, after the number of replicas was fixed. -/
def deploymentLines (replicas : String) : List String :=
  ["apiVersion: apps/v1",
    "kind: Deployment",
    "metadata:",
    "  name: web",
    "spec:",
    "  replicas: " ++ replicas,
    "  selector:",
    "    matchLabels:",
    "      app: web",
    "  template:",
    "    metadata:",
    "      labels:",
    "        app: web",
    "    spec:",
    "      containers:",
    "        - name: web",
    "          image: nginx:latest",
    "          ports:",
    "            - containerPort: 80"]

/-- A probe of the container with its two times. -/
def probeLines (name delay period : String) : List String :=
  ["          " ++ name ++ ":",
    "            httpGet:",
    "              path: /",
    "              port: 80",
    "            initialDelaySeconds: " ++ delay,
    "            periodSeconds: " ++ period]

/-- A section of the resources of the container. -/
def resourceLines (part cpu memory : String) : List String :=
  ["            " ++ part ++ ":",
    "              cpu: \"" ++ cpu ++ "\"",
    "              memory: \"" ++ memory ++ "\""]

/-- The manifest handed to players at the start of the second level. -/
def starterManifest : String := Text.unlines (deploymentLines "1")

/-- A manifest that satisfies every rule. -/
def passingManifest : String :=
  Text.unlines (deploymentLines "2" ++ probeLines "readinessProbe" "3" "5" ++
    probeLines "livenessProbe" "10" "10" ++ ["          resources:"] ++
    resourceLines "requests" "100m" "128Mi" ++ resourceLines "limits" "250m" "256Mi")

end EscapeRoom
